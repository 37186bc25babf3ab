import LocaleStrings.Proofs.Json.Written

/-!
# Compact texts are unambiguous

No two data have the same compact text, as long as they hold no doubles. What is shown is more: the
text of data shows where it ends, so that the data can be told from any text that begins with it.
Only a number needs help: what stands behind it must not begin with a digit.

* `Data.RealFree`: data without doubles;
* `Write.integer_append_inj`: a number ends where the digits end;
* `Data.firstKind_eq`: the first character tells of which kind the data is;
* `commaSeparated_append_inj`: texts that show where they end may be put together with commas;
* **`Data.RealFree.showsEnd`**, `Data.compact_injective`: the text of data shows where it ends, and
  so no two data have the same text.
-/

namespace LocaleStrings.Json

/-! ## Numbers -/

/-- A text that does not prolong a number before it. -/
def NoDigit (r : Text) : Prop := ∀ c ∈ r.head?, c.isDigit = false

theorem noDigit_nil : NoDigit [] := by simp [NoDigit]

theorem noDigit_cons {c : Char} (h : c.isDigit = false) (r : Text) : NoDigit (c :: r) := by
  simpa [NoDigit] using h

namespace Write

theorem exists_toDigits (n : Nat) :
    ∃ c cs, Nat.toDigits 10 n = c :: cs ∧ c.isDigit = true := by
  cases hn : Nat.toDigits 10 n with
  | nil => exact absurd hn Nat.toDigits_ne_nil
  | cons c cs => exact ⟨c, cs, rfl, isDigit_of_mem_toDigits c (hn ▸ List.mem_cons_self)⟩

theorem toDigits_append_inj {m n : Nat} {r s : Text} (hr : NoDigit r) (hs : NoDigit s)
    (h : Nat.toDigits 10 m ++ r = Nat.toDigits 10 n ++ s) : m = n ∧ r = s := by
  have hdigits : Nat.toDigits 10 m = Nat.toDigits 10 n := by
    rw [← Text.takeWhile_append_of_stop isDigit_of_mem_toDigits hr, h,
      Text.takeWhile_append_of_stop isDigit_of_mem_toDigits hs]
  refine ⟨?_, ?_⟩
  · rw [← Nat.ofDigitChars_ten_toDigits (n := m), hdigits, Nat.ofDigitChars_ten_toDigits]
  · rw [hdigits] at h
    exact List.append_cancel_left h

/-- A number that is not negative starts with no minus. -/
theorem toDigits_append_ne (n : Nat) (r s : Text) : Nat.toDigits 10 n ++ r ≠ '-' :: s := by
  obtain ⟨c, cs, hn, hc⟩ := exists_toDigits n
  rw [hn, List.cons_append]
  intro h
  obtain ⟨rfl, -⟩ := List.cons.inj h
  exact absurd hc (by decide)

/-- **A number ends where its digits end.** -/
theorem integer_append_inj {m n : Int} {r s : Text} (hr : NoDigit r) (hs : NoDigit s)
    (h : integer m ++ r = integer n ++ s) : m = n ∧ r = s := by
  cases m with
  | ofNat m =>
    cases n with
    | ofNat n =>
      obtain ⟨rfl, hrest⟩ := toDigits_append_inj hr hs h
      exact ⟨rfl, hrest⟩
    | negSucc n => exact absurd h (toDigits_append_ne m r _)
  | negSucc m =>
    cases n with
    | ofNat n => exact absurd h.symm (toDigits_append_ne n s _)
    | negSucc n =>
      obtain ⟨hmn, hrest⟩ := toDigits_append_inj hr hs (List.cons.inj h).2
      obtain rfl : m = n := by omega
      exact ⟨rfl, hrest⟩

end Write

/-! ## Lists -/

/-- Whatever stands behind the written form of `a`, the form shows that it is the one of `a`, and
where it ends. -/
def ShowsEnd {α : Type} (write : α → Text) (P : α → Prop) (a : α) : Prop :=
  ∀ b, P b → ∀ r s, NoDigit r → NoDigit s → write a ++ r = write b ++ s → a = b ∧ r = s

/-- What stands behind one of several written forms: the closing bracket, or a comma and the other
ones. -/
def afterOne {α : Type} (write : α → Text) (close : Char) (r : Text) : List α → Text
  | [] => close :: r
  | b :: bs => ',' :: (Data.commaSeparated write (b :: bs) ++ close :: r)

theorem commaSeparated_cons_append {α : Type} (write : α → Text) (close : Char) (r : Text) (a : α)
    (as : List α) :
    Data.commaSeparated write (a :: as) ++ close :: r = write a ++ afterOne write close r as := by
  cases as with
  | nil => rw [Data.commaSeparated_singleton, afterOne]
  | cons b bs => simp [Data.commaSeparated_cons, afterOne]

theorem noDigit_afterOne {α : Type} (write : α → Text) {close : Char}
    (hdigit : close.isDigit = false) (r : Text) (as : List α) :
    NoDigit (afterOne write close r as) := by
  cases as with
  | nil => exact noDigit_cons hdigit r
  | cons b bs => exact noDigit_cons rfl _

/-- **Texts that show where they end may be put together**, with commas between them and a bracket
behind the last one. -/
theorem commaSeparated_append_inj {α : Type} {write : α → Text} {P : α → Prop} {close : Char}
    (hcomma : close ≠ ',') (hdigit : close.isDigit = false)
    (hfirst : ∀ a, P a → ∀ r, (write a ++ r).head? ≠ some close) {as bs : List α}
    (hends : ∀ a ∈ as, ShowsEnd write P a) (has : ∀ a ∈ as, P a) (hbs : ∀ b ∈ bs, P b) {r s : Text}
    (h : Data.commaSeparated write as ++ close :: r = Data.commaSeparated write bs ++ close :: s) :
    as = bs ∧ r = s := by
  induction as generalizing bs with
  | nil =>
    cases bs with
    | nil => exact ⟨rfl, (List.cons.inj h).2⟩
    | cons b bs =>
      rw [commaSeparated_cons_append] at h
      exact absurd (congrArg List.head? h.symm) (hfirst b (hbs b List.mem_cons_self) _)
  | cons a as ih =>
    cases bs with
    | nil =>
      rw [commaSeparated_cons_append] at h
      exact absurd (congrArg List.head? h) (hfirst a (has a List.mem_cons_self) _)
    | cons b bs =>
      rw [commaSeparated_cons_append, commaSeparated_cons_append] at h
      obtain ⟨rfl, hrest⟩ := hends a List.mem_cons_self b (hbs b List.mem_cons_self) _ _
        (noDigit_afterOne write hdigit r as) (noDigit_afterOne write hdigit s bs) h
      -- behind the last one the bracket comes, behind every other one a comma
      cases as with
      | nil =>
        cases bs with
        | nil => exact ⟨rfl, (List.cons.inj hrest).2⟩
        | cons b bs => exact absurd (List.cons.inj hrest).1 hcomma
      | cons a' as =>
        cases bs with
        | nil => exact absurd (List.cons.inj hrest).1.symm hcomma
        | cons b bs =>
          obtain ⟨hsame, htail⟩ := ih (fun a h => hends a (List.mem_cons_of_mem _ h))
            (fun a h => has a (List.mem_cons_of_mem _ h))
            (fun b h => hbs b (List.mem_cons_of_mem _ h)) (List.cons.inj hrest).2
          exact ⟨by rw [hsame], htail⟩

/-! ## Data -/

namespace Data

/-- Data without doubles. -/
inductive RealFree : Data → Prop
  | null : RealFree .null
  | boolean (b : Bool) : RealFree (.boolean b)
  | integer (n : Int) : RealFree (.integer n)
  | string (s : Text) : RealFree (.string s)
  | array {items : List Data} (h : ∀ d ∈ items, RealFree d) : RealFree (.array items)
  | object {members : List (Text × Data)} (h : ∀ m ∈ members, RealFree m.2) :
      RealFree (.object members)

/-- The kind of the first token of data. -/
def firstKind : Data → Kind
  | .null => .null
  | .boolean b => .boolean b
  | .integer _ | .real _ => .number
  | .string _ => .string []
  | .array _ => .openArray
  | .object _ => .openObject

/-- The kind of the token that a character begins. -/
def kindOfFirst (c : Char) : Kind :=
  if c = 'n' then .null
  else if c = 't' then .boolean true
  else if c = 'f' then .boolean false
  else if c = '"' then .string []
  else if c = '[' then .openArray
  else if c = '\x7b' then .openObject
  else if c = '-' ∨ c.isDigit then .number
  else .word

theorem kindOfFirst_of_isDigit {c : Char} (h : c.isDigit = true) : kindOfFirst c = .number := by
  have hne : ∀ x : Char, x.isDigit = false → c ≠ x := by
    rintro x hx rfl
    rw [h] at hx
    cases hx
  simp only [kindOfFirst, hne 'n' rfl, hne 't' rfl, hne 'f' rfl, hne '"' rfl, hne '[' rfl,
    hne '\x7b' rfl, h, if_false, or_true, if_true]

/-- **The first character of the text of data tells of which kind the data is.** -/
theorem RealFree.exists_head {d : Data} (h : d.RealFree) :
    ∃ c cs, d.compact = c :: cs ∧ kindOfFirst c = d.firstKind := by
  cases h with
  | null => exact ⟨'n', _, rfl, rfl⟩
  | boolean b => cases b <;> exact ⟨_, _, rfl, rfl⟩
  | integer n =>
    cases n with
    | ofNat n =>
      obtain ⟨c, cs, hn, hc⟩ := Write.exists_toDigits n
      exact ⟨c, cs, hn, kindOfFirst_of_isDigit hc⟩
    | negSucc n => exact ⟨'-', _, rfl, rfl⟩
  | string s => exact ⟨'"', _, rfl, rfl⟩
  | array => exact ⟨'[', _, rfl, rfl⟩
  | object => exact ⟨'\x7b', _, rfl, rfl⟩

theorem firstKind_eq {d e : Data} {r s : Text} (hd : d.RealFree) (he : e.RealFree)
    (h : d.compact ++ r = e.compact ++ s) : d.firstKind = e.firstKind := by
  obtain ⟨c, cs, hc, hkind⟩ := hd.exists_head
  obtain ⟨c', cs', hc', hkind'⟩ := he.exists_head
  rw [hc, hc'] at h
  rw [← hkind, ← hkind', (List.cons.inj h).1]

/-- No data begins with the bracket that ends an array. -/
theorem head?_compact_ne {d : Data} (h : d.RealFree) (r : Text) :
    (d.compact ++ r).head? ≠ some ']' := by
  obtain ⟨c, cs, hc, hkind⟩ := h.exists_head
  rw [hc]
  intro hhead
  obtain rfl : c = ']' := Option.some.inj hhead
  cases d <;> cases hkind

/-- Members show where they end, if their values do. -/
theorem showsEnd_memberText {m : Text × Data} (h : ShowsEnd compact RealFree m.2) :
    ShowsEnd (memberText [] compact) (fun m' => m'.2.RealFree) m := by
  intro m' hm' r s hr hs htext
  simp only [memberText, List.nil_append, List.append_assoc, List.cons_append] at htext
  obtain ⟨hkey, hvalue⟩ := Write.string_append_inj htext
  obtain ⟨hdata, hrest⟩ := h m'.2 hm' r s hr hs (List.cons.inj hvalue).2
  exact ⟨Prod.ext hkey hdata, hrest⟩

theorem array_append (items : List Data) (r : Text) :
    (Data.array items).compact ++ r
      = '[' :: (commaSeparated compact items ++ ']' :: r) := by
  simp [compact, compactItems_eq]

theorem object_append (members : List (Text × Data)) (r : Text) :
    (Data.object members).compact ++ r
      = '\x7b' :: (commaSeparated (memberText [] compact) members ++ '\x7d' :: r) := by
  simp [compact, compactMembers_eq]

/-- **The text of data shows where it ends.** -/
theorem RealFree.showsEnd {d : Data} (h : d.RealFree) : ShowsEnd compact RealFree d := by
  intro e he r s hr hs htext
  have hkind := firstKind_eq h he htext
  induction h generalizing e r s with
  | null =>
    cases he with
    | null => exact ⟨rfl, List.append_cancel_left htext⟩
    | boolean | integer | string | array | object => cases hkind
  | boolean b =>
    cases he with
    | boolean b' =>
      cases hkind
      exact ⟨rfl, List.append_cancel_left htext⟩
    | null | integer | string | array | object => cases hkind
  | integer n =>
    cases he with
    | integer n' =>
      obtain ⟨rfl, hrest⟩ := Write.integer_append_inj hr hs htext
      exact ⟨rfl, hrest⟩
    | null | boolean | string | array | object => cases hkind
  | string t =>
    cases he with
    | string t' =>
      obtain ⟨rfl, hrest⟩ := Write.string_append_inj htext
      exact ⟨rfl, hrest⟩
    | null | boolean | integer | array | object => cases hkind
  | array h ih =>
    have hends : ∀ d ∈ _, ShowsEnd compact RealFree d := fun d hd e he r s hr hs htext =>
      ih d hd e he r s hr hs htext (firstKind_eq (h d hd) he htext)
    cases he with
    | array h' =>
      rw [array_append, array_append] at htext
      obtain ⟨rfl, hrest⟩ := commaSeparated_append_inj (by decide) rfl
        (fun d hd r => head?_compact_ne hd r) hends h h' (List.cons.inj htext).2
      exact ⟨rfl, hrest⟩
    | null | boolean | integer | string | object => cases hkind
  | object h ih =>
    have hends : ∀ m ∈ _, ShowsEnd (memberText [] compact) (fun m => m.2.RealFree) m := fun m hm =>
      showsEnd_memberText fun e he r s hr hs htext =>
        ih m hm e he r s hr hs htext (firstKind_eq (h m hm) he htext)
    cases he with
    | object h' =>
      rw [object_append, object_append] at htext
      obtain ⟨rfl, hrest⟩ := commaSeparated_append_inj (by decide) rfl
        (fun m _ r => by simp [memberText, Write.string]) hends h h' (List.cons.inj htext).2
      exact ⟨rfl, hrest⟩
    | null | boolean | integer | string | array => cases hkind

/-- **No two data without doubles have the same compact text.** -/
theorem compact_injective {d e : Data} (hd : d.RealFree) (he : e.RealFree)
    (h : d.compact = e.compact) : d = e :=
  (hd.showsEnd e he [] [] noDigit_nil noDigit_nil (by rw [h])).1

end Data

end LocaleStrings.Json
