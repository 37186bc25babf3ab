import LocaleStrings.Source.Position
import Mathlib.Tactic.SplitIfs

/-!
# Parts of a text and their offsets

A text cut into parts has its cuts at the sizes of what comes before them.

* `Text.within_append`, `Text.within_append_of_le`: the initial part up to an offset behind, or
  before, a cut;
* `Text.splitAt?_size`: every cut is a character boundary;
* `Text.PartAt`: a part of a text together with the byte offset at which it starts;
* **`Text.PartAt.slice`**, `Text.partAt_of_slice`: the span of a part covers exactly the part, and
  what a span covers is a part.
-/

namespace LocaleStrings

namespace Text

theorem length_le_size (t : Text) : t.length ≤ size t := by
  induction t with
  | nil => exact Nat.le_refl _
  | cons c cs ih =>
    have := c.utf8Size_pos
    simp only [List.length_cons, size_cons]
    omega

/-! ## Initial parts -/

theorem within_zero (t : Text) : within 0 t = [] := by
  cases t with
  | nil => rfl
  | cons c cs =>
    rw [within, if_neg]
    have := c.utf8Size_pos
    omega

theorem within_append (a b : Text) (n : Nat) : within (size a + n) (a ++ b) = a ++ within n b := by
  induction a with
  | nil => simp
  | cons c cs ih =>
    rw [List.cons_append, within, if_pos (by simp only [size_cons]; omega), List.cons_append, ← ih]
    congr 2
    simp only [size_cons]
    omega

theorem within_size_append (a b : Text) : within (size a) (a ++ b) = a := by
  have := within_append a b 0
  rwa [Nat.add_zero, within_zero, List.append_nil] at this

theorem within_append_of_le {a : Text} {n : Nat} (h : n ≤ size a) (b : Text) :
    within n (a ++ b) = within n a := by
  induction a generalizing n with
  | nil =>
    obtain rfl : n = 0 := Nat.le_zero.mp h
    rw [within_zero, within_zero]
  | cons c cs ih =>
    rw [List.cons_append, within, within]
    split_ifs with hc
    · rw [ih]
      simp only [size_cons] at h
      omega
    · rfl

theorem within_of_size_le {t : Text} {n : Nat} (h : size t ≤ n) : within n t = t := by
  obtain ⟨k, rfl⟩ := Nat.exists_eq_add_of_le h
  have := within_append t [] k
  rwa [List.append_nil, within, List.append_nil] at this

theorem within_min_size (n : Nat) (t : Text) : within (min n (size t)) t = within n t := by
  by_cases h : n ≤ size t
  · rw [Nat.min_eq_left h]
  · have h' : size t ≤ n := Nat.le_of_not_le h
    rw [Nat.min_eq_right h', within_of_size_le h', within_of_size_le (Nat.le_refl _)]

theorem exists_eq_within_append (n : Nat) (t : Text) : ∃ rest, t = within n t ++ rest := by
  induction t generalizing n with
  | nil => exact ⟨[], rfl⟩
  | cons c cs ih =>
    rw [within]
    split_ifs with hc
    · obtain ⟨rest, hr⟩ := ih (n - c.utf8Size)
      exact ⟨rest, by rw [List.cons_append, ← hr]⟩
    · exact ⟨c :: cs, rfl⟩

/-! ## Cuts -/

theorem splitAt?_size (a b : Text) : splitAt? (size a) (a ++ b) = some (a, b) := by
  induction a with
  | nil => rw [size_nil, List.nil_append, splitAt?]
  | cons c cs ih =>
    obtain ⟨k, hk⟩ : ∃ k, size (c :: cs) = k + 1 :=
      Nat.exists_eq_succ_of_ne_zero (by have := c.utf8Size_pos; simp only [size_cons]; omega)
    have hrest : k + 1 - c.utf8Size = size cs := by
      simp only [size_cons] at hk
      omega
    rw [List.cons_append, hk, splitAt?, if_pos (by simp only [size_cons] at hk; omega), hrest, ih]
    rfl

theorem splitAt?_eq_some {n : Nat} {t a b : Text} (h : splitAt? n t = some (a, b)) :
    t = a ++ b ∧ n = size a := by
  induction t generalizing n a with
  | nil =>
    cases n with
    | zero =>
      cases h
      exact ⟨rfl, rfl⟩
    | succ n => cases h
  | cons c cs ih =>
    cases n with
    | zero =>
      cases h
      exact ⟨rfl, rfl⟩
    | succ n =>
      rw [splitAt?] at h
      split_ifs at h with hc
      obtain ⟨⟨before, after⟩, hcut, he⟩ := Option.map_eq_some_iff.mp h
      cases he
      obtain ⟨rfl, hn⟩ := ih hcut
      refine ⟨rfl, ?_⟩
      simp only [size_cons]
      omega

@[simp] theorem upTo_append (a b : Text) : upTo (a ++ b) b = a := by
  simp [upTo]

@[simp] theorem sizeUpTo_append (a b : Text) : sizeUpTo (a ++ b) b = size a := by
  rw [sizeUpTo, upTo_append]

/-! ## Classes of characters -/

theorem toNat_ofNat_of_valid {n : Nat} (h : n.isValidChar) : (Char.ofNat n).toNat = n := by
  rw [Char.ofNat, dif_pos h]
  rfl

/-- A range of code points is checked one by one. -/
theorem forall_of_range {p : Char → Prop} {first count : Nat}
    (h : ∀ k ∈ List.range' first count, p (Char.ofNat k)) {c : Char} (hfirst : first ≤ c.toNat)
    (hlast : c.toNat < first + count) : p c := by
  rw [← Char.ofNat_toNat c]
  exact h _ (List.mem_range'_1.mpr ⟨hfirst, hlast⟩)

/-- The characters of a list are checked one by one. -/
theorem forall_of_all {p : Char → Prop} [DecidablePred p] {t : Text}
    (h : t.all (fun c => decide (p c)) = true) : ∀ c ∈ t, p c := fun c hc =>
  of_decide_eq_true (List.all_eq_true.mp h c hc)

/-- A run ends where the next character is of another class. -/
theorem takeWhile_append_of_stop {p : Char → Bool} {t r : Text} (ht : ∀ c ∈ t, p c = true)
    (hr : ∀ c ∈ r.head?, p c = false) : (t ++ r).takeWhile p = t := by
  rw [List.takeWhile_append_of_pos ht]
  cases r with
  | nil => simp
  | cons c cs => rw [List.takeWhile_cons_of_neg (by simp [hr c rfl]), List.append_nil]

theorem dropWhile_append_of_stop {p : Char → Bool} {t r : Text} (ht : ∀ c ∈ t, p c = true)
    (hr : ∀ c ∈ r.head?, p c = false) : (t ++ r).dropWhile p = r := by
  rw [List.dropWhile_append_of_pos ht]
  cases r with
  | nil => rfl
  | cons c cs => rw [List.dropWhile_cons_of_neg (by simp [hr c rfl])]

/-! ## Parts -/

/-- `part` stands in `text` at byte `offset`. -/
def PartAt (text : Text) (offset : Nat) (part : Text) : Prop :=
  ∃ before after, text = before ++ part ++ after ∧ offset = size before

theorem PartAt.refl (t : Text) : PartAt t 0 t := ⟨[], [], by simp, rfl⟩

/-- A part of a part is a part. -/
theorem PartAt.trans {text region part : Text} {o k : Nat} (h : PartAt text o region)
    (h' : PartAt region k part) : PartAt text (o + k) part := by
  obtain ⟨b, a, rfl, rfl⟩ := h
  obtain ⟨b', a', rfl, rfl⟩ := h'
  exact ⟨b ++ b', a' ++ a, by simp, by simp⟩

theorem PartAt.add_size_le {text part : Text} {o : Nat} (h : PartAt text o part) :
    o + size part ≤ size text := by
  obtain ⟨b, a, rfl, rfl⟩ := h
  simp

/-- **The span of a part covers exactly the part.** -/
theorem PartAt.slice {text part : Text} {o : Nat} (h : PartAt text o part) :
    (⟨o, o + size part⟩ : Span).slice text = some part := by
  obtain ⟨b, a, rfl, rfl⟩ := h
  have hrest : splitAt? (size b) (b ++ part ++ a) = some (b, part ++ a) := by
    rw [List.append_assoc]
    exact splitAt?_size b (part ++ a)
  have hpart : splitAt? (size b + size part - size b) (part ++ a) = some (part, a) := by
    rw [Nat.add_sub_cancel_left]
    exact splitAt?_size part a
  rw [Span.slice, if_pos (Nat.le_add_right _ _), hrest]
  simp only [Option.bind_eq_bind, Option.bind_some, hpart]
  rfl

/-- A span covers a part only if the part stands there. -/
theorem partAt_of_slice {text part : Text} {s : Span} (h : s.slice text = some part) :
    PartAt text s.start part ∧ s.stop = s.start + size part := by
  unfold Span.slice at h
  split_ifs at h with horder
  simp only [Option.bind_eq_bind, Option.bind_eq_some_iff] at h
  obtain ⟨⟨before, rest⟩, hcut, ⟨covered, after⟩, hcut', he⟩ := h
  cases he
  obtain ⟨rfl, hstart⟩ := splitAt?_eq_some hcut
  obtain ⟨rfl, hlen⟩ := splitAt?_eq_some hcut'
  refine ⟨⟨before, after, by rw [List.append_assoc], hstart⟩, ?_⟩
  show s.stop = s.start + size covered
  omega

end Text

end LocaleStrings
