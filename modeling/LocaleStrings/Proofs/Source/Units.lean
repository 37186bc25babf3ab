import LocaleStrings.Proofs.Source.Offsets
import Mathlib.Data.List.Count
import Mathlib.Data.List.Infix

/-!
# Texts byte by byte

A reader of bytes sees a character beyond ASCII as several bytes, each of them beyond ASCII. Here a
byte is read as the character of its code, so that characters and bytes can be asked the same.

* `Text.units`: the bytes of a text, each read as the character of its code;
* `Text.exists_take_units`: the bytes before an offset, which may be inside a character;
* `AsciiClass`: a class that does not tell characters beyond ASCII apart;
* **`AsciiClass.takeWhile_units`**: a run of bytes of such a class is a run of characters, so it
  ends between two characters;
* `Text.sizeUpTo_append_right`, `Text.sizeUpTo_trans`: the offset of a suffix of a text;
* `Text.drop_units`, `Text.getElem?_units`: the bytes behind the offset of a suffix.
-/

namespace LocaleStrings

/-! ## Bytes as characters -/

/-- The bytes of a text, each read as the character of its code. -/
def Text.units (t : Text) : List Char := t.bytes.map fun b => Char.ofNat b.toNat

namespace Text

theorem units_cons (c : Char) (cs : Text) : units (c :: cs) = units [c] ++ units cs := by
  simp [units, bytes]

theorem units_append (s t : Text) : units (s ++ t) = units s ++ units t := by
  simp [units, bytes]

theorem length_units (t : Text) : t.units.length = t.size := by
  induction t with
  | nil => rfl
  | cons c cs ih =>
    have hc : (units [c]).length = c.utf8Size := by
      simp [units, bytes, String.length_utf8EncodeChar]
    rw [units_cons, List.length_append, hc, ih, size_cons]

theorem toNat_ofNat_of_lt {n : Nat} (h : n < 256) : (Char.ofNat n).toNat = n :=
  toNat_ofNat_of_valid (.inl (by omega))

theorem units_ascii {c : Char} (h : c.toNat < 128) : units [c] = [c] := by
  have hbyte : (UInt8.ofNat c.val.toNat).toNat = c.toNat :=
    Nat.mod_eq_of_lt (Nat.lt_trans h (by decide))
  have hle : c.val.toNat ≤ 127 := Nat.le_of_lt_succ h
  simp only [units, bytes, List.flatMap_cons, List.flatMap_nil, List.append_nil,
    String.utf8EncodeChar, if_pos hle, List.map_cons, List.map_nil, hbyte, Char.ofNat_toNat]

theorem utf8Size_ascii {c : Char} (h : c.toNat < 128) : c.utf8Size = 1 := by
  have hlength := length_units [c]
  rw [units_ascii h] at hlength
  exact hlength.symm

/-- Each byte of a character beyond ASCII is beyond ASCII. -/
theorem le_of_mem_units {c : Char} (h : 128 ≤ c.toNat) {u : Char} (hu : u ∈ units [c]) :
    128 ≤ u.toNat := by
  have hbyte : ∀ n, (UInt8.ofNat n).toNat = n % 256 := fun n => rfl
  have hnot : ¬ c.val.toNat ≤ 127 := Nat.not_le.mpr h
  obtain ⟨b, hb, rfl⟩ := List.mem_map.mp hu
  rw [toNat_ofNat_of_lt b.toNat_lt]
  rw [bytes, List.flatMap_cons, List.flatMap_nil, List.append_nil, String.utf8EncodeChar] at hb
  simp only [if_neg hnot] at hb
  split_ifs at hb <;> simp only [List.mem_cons, List.not_mem_nil, or_false] at hb
  · rcases hb with rfl | rfl <;> rw [hbyte] <;> omega
  · rcases hb with rfl | rfl | rfl <;> rw [hbyte] <;> omega
  · rcases hb with rfl | rfl | rfl | rfl <;> rw [hbyte] <;> omega

theorem units_ne_nil (c : Char) : units [c] ≠ [] := by
  have hlength := length_units [c]
  have hpos := c.utf8Size_pos
  intro hnil
  rw [hnil] at hlength
  simp only [List.length_nil, size_cons, size_nil] at hlength
  omega

/-- An ASCII character is among the bytes as often as among the characters. -/
theorem count_units {x : Char} (hx : x.toNat < 128) (t : Text) : t.units.count x = t.count x := by
  induction t with
  | nil => rfl
  | cons c cs ih =>
    rw [units_cons, List.count_append, ih]
    by_cases hc : c.toNat < 128
    · rw [units_ascii hc, ← List.count_append, List.singleton_append]
    · have hnone : x ∉ units [c] := fun hmem => by
        have := le_of_mem_units (Nat.le_of_not_lt hc) hmem
        omega
      have hne : c ≠ x := by
        rintro rfl
        exact hc hx
      rw [List.count_eq_zero_of_not_mem hnone, List.count_cons_of_ne hne, Nat.zero_add]

/-- An ASCII byte is among the bytes as often as its character is in the text. -/
theorem count_bytes {b : UInt8} (hb : b.toNat < 128) (t : Text) :
    t.bytes.count b = t.count (Char.ofNat b.toNat) := by
  have hinj : Function.Injective fun b : UInt8 => Char.ofNat b.toNat := by
    intro a b h
    have hcode := congrArg Char.toNat h
    simp only [toNat_ofNat_of_lt a.toNat_lt, toNat_ofNat_of_lt b.toNat_lt] at hcode
    exact UInt8.toNat_inj.mp hcode
  rw [← count_units (by rwa [toNat_ofNat_of_lt b.toNat_lt]), units]
  exact (List.count_map_of_injective t.bytes _ hinj b).symm

/-- **The first `n` bytes of a text** are those of the characters that fit into them, and some of
one more character, which is beyond ASCII. -/
theorem exists_take_units (n : Nat) (t : Text) :
    ∃ part, t.units.take n = (within n t).units ++ part ∧ ∀ u ∈ part, 128 ≤ u.toNat := by
  induction t generalizing n with
  | nil => exact ⟨[], by simp [units, bytes, within], fun _ hu => absurd hu List.not_mem_nil⟩
  | cons c cs ih =>
    have hlength : (units [c]).length = c.utf8Size := length_units [c]
    rw [units_cons, List.take_append, hlength, within]
    split_ifs with hc
    · obtain ⟨part, htake, hpart⟩ := ih (n - c.utf8Size)
      refine ⟨part, ?_, hpart⟩
      rw [htake, List.take_of_length_le (by omega), units_cons c (within _ cs), List.append_assoc]
    · refine ⟨(units [c]).take n, ?_, fun u hu => ?_⟩
      · rw [Nat.sub_eq_zero_of_le (by omega), List.take_zero, List.append_nil]
        rfl
      · refine le_of_mem_units (Nat.le_of_not_lt fun hascii => ?_) (List.mem_of_mem_take hu)
        have hsize := utf8Size_ascii hascii
        obtain rfl : n = 0 := by omega
        exact absurd hu List.not_mem_nil

end Text

/-! ## Classes of bytes -/

/-- A class that does not tell characters beyond ASCII apart. -/
def AsciiClass (p : Char → Bool) : Prop :=
  ∀ c d : Char, 128 ≤ c.toNat → 128 ≤ d.toNat → p c = p d

namespace AsciiClass

variable {p q : Char → Bool}

theorem of_imp (h : ∀ c, p c = true → c.toNat < 128) : AsciiClass p := by
  have hfalse : ∀ c : Char, 128 ≤ c.toNat → p c = false := by
    intro c hc
    rw [Bool.eq_false_iff]
    intro hpc
    have := h c hpc
    omega
  intro c d hc hd
  rw [hfalse c hc, hfalse d hd]

theorem beq {x : Char} (hx : x.toNat < 128) : AsciiClass (· == x) :=
  of_imp fun c hc => by rwa [beq_iff_eq.mp hc]

theorem or (hp : AsciiClass p) (hq : AsciiClass q) : AsciiClass fun c => p c || q c := by
  intro c d hc hd
  simp only [hp c d hc hd, hq c d hc hd]

theorem not (hp : AsciiClass p) : AsciiClass fun c => !p c := by
  intro c d hc hd
  simp only [hp c d hc hd]

/-- The bytes of a character are in a class if the character is. -/
theorem of_mem_units (hp : AsciiClass p) {c u : Char} (hu : u ∈ Text.units [c]) : p u = p c := by
  by_cases hc : c.toNat < 128
  · rw [Text.units_ascii hc] at hu
    rw [List.mem_singleton.mp hu]
  · have hle : 128 ≤ c.toNat := Nat.le_of_not_lt hc
    exact hp u c (Text.le_of_mem_units hle hu) hle

/-- **A run of bytes is a run of characters.** -/
theorem takeWhile_units (hp : AsciiClass p) (cs : Text) :
    cs.units.takeWhile p = Text.units (cs.takeWhile p) := by
  induction cs with
  | nil => rfl
  | cons c cs ih =>
    rw [Text.units_cons]
    by_cases hc : p c = true
    · rw [List.takeWhile_append_of_pos fun u hu => (hp.of_mem_units hu).trans hc, ih,
        List.takeWhile_cons_of_pos hc, ← Text.units_cons]
    · obtain ⟨u, us, hus⟩ := List.exists_cons_of_ne_nil (Text.units_ne_nil c)
      have hu : p u = p c := hp.of_mem_units (hus ▸ List.mem_cons_self)
      rw [hus, List.cons_append, List.takeWhile_cons_of_neg (by rwa [hu]),
        List.takeWhile_cons_of_neg hc]
      rfl

end AsciiClass

/-! ## The offset of a suffix -/

namespace Text

variable {source : Text}

theorem sizeUpTo_self (t : Text) : sizeUpTo t t = 0 := sizeUpTo_append [] t

theorem sizeUpTo_nil (t : Text) : sizeUpTo t [] = size t := by
  have h := sizeUpTo_append t []
  rwa [List.append_nil] at h

/-- The offset behind a part. -/
theorem sizeUpTo_append_right {t rest : Text} (h : t ++ rest <:+ source) :
    sizeUpTo source rest = sizeUpTo source (t ++ rest) + size t := by
  obtain ⟨before, rfl⟩ := h
  rw [sizeUpTo_append, ← List.append_assoc, sizeUpTo_append, size_append]

theorem sizeUpTo_cons {c : Char} {rest : Text} (h : c :: rest <:+ source) :
    sizeUpTo source rest = sizeUpTo source (c :: rest) + c.utf8Size :=
  sizeUpTo_append_right (t := [c]) h

theorem sizeUpTo_cons_ascii {c : Char} {rest : Text} (h : c :: rest <:+ source)
    (hc : c.toNat < 128) : sizeUpTo source rest = sizeUpTo source (c :: rest) + 1 := by
  rw [sizeUpTo_cons h, utf8Size_ascii hc]

theorem sizeUpTo_dropWhile (p : Char → Bool) {cs : Text} (h : cs <:+ source) :
    sizeUpTo source (cs.dropWhile p) = sizeUpTo source cs + size (cs.takeWhile p) := by
  have hsplit := List.takeWhile_append_dropWhile (p := p) (l := cs)
  rw [← hsplit] at h
  have hnext := sizeUpTo_append_right h
  rwa [hsplit] at hnext

theorem sizeUpTo_trans {cs rest : Text} (h : cs <:+ source) (h' : rest <:+ cs) :
    sizeUpTo source cs + sizeUpTo cs rest = sizeUpTo source rest := by
  obtain ⟨t, rfl⟩ := h'
  rw [sizeUpTo_append, sizeUpTo_append_right h]

theorem sizeUpTo_add_size {cs : Text} (h : cs <:+ source) :
    sizeUpTo source cs + size cs = size source := by
  obtain ⟨before, rfl⟩ := h
  rw [sizeUpTo_append, size_append]

/-- The bytes behind the offset of a suffix are its bytes. -/
theorem drop_units {cs : Text} (h : cs <:+ source) :
    source.units.drop (sizeUpTo source cs) = cs.units := by
  obtain ⟨before, rfl⟩ := h
  rw [sizeUpTo_append, units_append, ← length_units, List.drop_left]

/-- The byte at the offset of a suffix is in the classes of its first character. -/
theorem getElem?_units {c : Char} {rest : Text} (h : c :: rest <:+ source) :
    ∃ u, source.units[sizeUpTo source (c :: rest)]? = some u ∧
      ∀ p, AsciiClass p → p u = p c := by
  obtain ⟨u, us, hus⟩ := List.exists_cons_of_ne_nil (units_ne_nil c)
  have hdrop := drop_units h
  rw [units_cons, hus, List.cons_append] at hdrop
  refine ⟨u, ?_, fun p hp => hp.of_mem_units (hus ▸ List.mem_cons_self)⟩
  rw [← List.head?_drop, hdrop]
  rfl

/-- Such a byte is a given ASCII byte exactly if the character is. -/
theorem unit_eq_iff {c u x : Char} (h : ∀ p, AsciiClass p → p u = p c) (hx : x.toNat < 128) :
    u = x ↔ c = x := by
  have hbeq := h _ (AsciiClass.beq hx)
  rw [← beq_iff_eq, hbeq, beq_iff_eq]

theorem getElem?_units_eq_none : source.units[sizeUpTo source []]? = none := by
  rw [sizeUpTo_nil, ← length_units]
  exact List.getElem?_eq_none (Nat.le_refl _)

theorem units_of_ascii {s : Text} (hs : ∀ c ∈ s, c.toNat < 128) : units s = s := by
  induction s with
  | nil => rfl
  | cons c s ih =>
    rw [units_cons, units_ascii (hs c List.mem_cons_self),
      ih fun d hd => hs d (List.mem_cons_of_mem _ hd)]
    rfl

/-- ASCII bytes at the start of the bytes of a text are characters at its start. -/
theorem exists_of_units_eq_append {s r : List Char} {cs : Text} (hs : ∀ c ∈ s, c.toNat < 128)
    (h : cs.units = s ++ r) : ∃ rest, cs = s ++ rest ∧ rest.units = r := by
  induction s generalizing cs with
  | nil => exact ⟨cs, rfl, h⟩
  | cons x s ih =>
    have hx := hs x List.mem_cons_self
    cases cs with
    | nil => cases h
    | cons c cs =>
      obtain ⟨u, us, hus⟩ := List.exists_cons_of_ne_nil (units_ne_nil c)
      rw [units_cons, hus, List.cons_append] at h
      obtain rfl : u = x := (List.cons.inj h).1
      have hc : c = u := (unit_eq_iff (fun p hp => hp.of_mem_units (hus ▸ List.mem_cons_self))
        hx).mp rfl
      rw [hc, units_ascii hx] at hus
      obtain rfl : us = [] := (List.cons.inj hus).2.symm
      obtain ⟨rest, rfl, hrest⟩ := ih (fun d hd => hs d (List.mem_cons_of_mem _ hd))
        (List.cons.inj h).2
      exact ⟨rest, by rw [hc]; rfl, hrest⟩

theorem all_head?_units {p : Char → Bool} (hp : AsciiClass p) (cs : Text) :
    cs.units.head?.all p = cs.head?.all p := by
  cases cs with
  | nil => rfl
  | cons c cs =>
    obtain ⟨u, us, hus⟩ := List.exists_cons_of_ne_nil (units_ne_nil c)
    rw [units_cons, hus]
    exact hp.of_mem_units (hus ▸ List.mem_cons_self)

/-- An ASCII byte stands at the offset of a suffix exactly if it is the first character there. -/
theorem getElem?_units_eq_some_iff {cs : Text} (h : cs <:+ source) {x : Char}
    (hx : x.toNat < 128) :
    source.units[sizeUpTo source cs]? = some x ↔ cs.head? = some x := by
  cases cs with
  | nil => simp [getElem?_units_eq_none]
  | cons c rest =>
    obtain ⟨u, hu, hclass⟩ := getElem?_units h
    rw [hu, List.head?_cons, Option.some_inj, Option.some_inj, unit_eq_iff hclass hx]

end Text

end LocaleStrings
