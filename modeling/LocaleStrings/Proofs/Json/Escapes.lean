import LocaleStrings.Json.Strict.Tokens
import LocaleStrings.Proofs.Json.Grammar

/-!
# The readers' classes of characters and the grammar

Both readers share some functions on single characters and numbers. Each of them says what the
grammar says in its own words.

* `Kind.ofMark?_eq_some_iff`, `Strict.isBlank_iff`: marks and blanks;
* `escaped?_eq_some_iff`: the escapes of one letter;
* `hexValue?_eq_some_iff`, `hexValue4?_eq_some_iff`: hexadecimal digits and numbers;
* `toNat_ofNat_of_not_surrogate`: a unit of UTF-16 that is no surrogate is a character;
* `toNat_ofSurrogates`, `ofSurrogates_halves`: a surrogate pair is the two halves of a character.
-/

namespace LocaleStrings.Json

/-! ## Marks, blanks and letters -/

theorem Kind.ofMark?_eq_some_iff {c : Char} {k : Kind} : Kind.ofMark? c = some k ↔ Mark c k := by
  constructor
  · intro h
    unfold Kind.ofMark? at h
    split at h <;> cases h <;> constructor
  · rintro (_ | _) <;> rfl

theorem Strict.isBlank_iff {c : Char} :
    Strict.isBlank c = true ↔ c ∈ [' ', '\t', '\n', '\r'] := by
  simp only [Strict.isBlank, Bool.or_eq_true, beq_iff_eq, List.mem_cons, List.not_mem_nil, or_false]
  tauto

theorem isGap_iff {t : Text} : IsGap t ↔ ∀ c ∈ t, Strict.isBlank c = true := by
  simp only [IsGap, Strict.isBlank_iff]

theorem escaped?_eq_some_iff {e c : Char} : escaped? e = some c ↔ LetterEscape e c := by
  constructor
  · intro h
    unfold escaped? at h
    split at h <;> cases h <;> constructor
  · rintro (_ | _) <;> rfl

/-! ## Hexadecimal digits -/

/-- The digits of a row, one by one. -/
theorem hexValue?_of_row {row : Text}
    (hrow : ∀ k < row.length, row[k]?.bind Ascii.hexValue? = some k) {c : Char} {k : Nat}
    (h : row[k]? = some c) : Ascii.hexValue? c = some k := by
  obtain ⟨hk, -⟩ := List.getElem?_eq_some_iff.mp h
  have hvalue := hrow k hk
  rwa [h] at hvalue

/-- From some place on, a row of digits holds the characters of a range of code points. -/
theorem getElem?_of_range (row : Text) (first count place : Nat)
    (h : ∀ k ∈ List.range' first count, row[k - first + place]? = some (Char.ofNat k)) {c : Char}
    (hfirst : first ≤ c.toNat) (hlast : c.toNat < first + count) :
    row[c.toNat - first + place]? = some c := by
  have hc := h c.toNat (List.mem_range'_1.mpr ⟨hfirst, hlast⟩)
  rwa [Char.ofNat_toNat] at hc

theorem hexValue?_eq_some_iff {c : Char} {k : Nat} :
    Ascii.hexValue? c = some k ↔ IsHexDigit c k := by
  constructor
  · intro h
    unfold Ascii.hexValue? at h
    simp only [Ascii.isDigit, Ascii.digitValue, Bool.and_eq_true, decide_eq_true_eq, Char.le_def,
      UInt32.le_iff_toNat_le] at h
    split_ifs at h with hdigit hlower hupper
    · obtain rfl := Option.some.inj h
      exact .inl (getElem?_of_range "0123456789abcdef".toList 48 10 0 (by decide) hdigit.1
        (Nat.lt_succ_of_le hdigit.2))
    · obtain rfl := Option.some.inj h
      exact .inl (getElem?_of_range "0123456789abcdef".toList 97 6 10 (by decide) hlower.1
        (Nat.lt_succ_of_le hlower.2))
    · obtain rfl := Option.some.inj h
      exact .inr (getElem?_of_range "0123456789ABCDEF".toList 65 6 10 (by decide) hupper.1
        (Nat.lt_succ_of_le hupper.2))
  · rintro (h | h)
    · exact hexValue?_of_row (by decide) h
    · exact hexValue?_of_row (by decide) h

theorem IsHexDigit.lt {c : Char} {k : Nat} (h : IsHexDigit c k) : k < 16 := by
  rcases h with h | h <;>
  · obtain ⟨hk, -⟩ := List.getElem?_eq_some_iff.mp h
    exact hk

theorem hexValue4?_eq_some_iff {a b c d : Char} {n : Nat} :
    Strict.hexValue4? a b c d = some n ↔ IsHex4 a b c d n := by
  simp only [Strict.hexValue4?, bind, Option.bind_eq_some_iff, pure, Option.some.injEq,
    hexValue?_eq_some_iff, IsHex4]
  constructor
  · rintro ⟨i, hi, j, hj, k, hk, l, hl, rfl⟩
    exact ⟨i, j, k, l, hi, hj, hk, hl, by omega⟩
  · rintro ⟨i, j, k, l, hi, hj, hk, hl, rfl⟩
    exact ⟨i, hi, j, hj, k, hk, l, hl, by omega⟩

theorem IsHex4.lt {a b c d : Char} {n : Nat} (h : IsHex4 a b c d n) : n < 0x10000 := by
  obtain ⟨i, j, k, l, hi, hj, hk, hl, rfl⟩ := h
  have := hi.lt
  have := hj.lt
  have := hk.lt
  have := hl.lt
  omega

/-! ## Units of UTF-16 -/

theorem isHighSurrogate_iff {n : Nat} : isHighSurrogate n = true ↔ 0xD800 ≤ n ∧ n ≤ 0xDBFF := by
  simp [isHighSurrogate]

theorem isLowSurrogate_iff {n : Nat} : isLowSurrogate n = true ↔ 0xDC00 ≤ n ∧ n ≤ 0xDFFF := by
  simp [isLowSurrogate]

theorem toNat_ofNat_of_not_surrogate {n : Nat} (hn : n < 0x10000)
    (hhigh : ¬ isHighSurrogate n = true) (hlow : ¬ isLowSurrogate n = true) :
    (Char.ofNat n).toNat = n := by
  rw [isHighSurrogate_iff] at hhigh
  rw [isLowSurrogate_iff] at hlow
  have hvalid : n < 0xD800 ∨ 0xDFFF < n ∧ n < 0x110000 := by omega
  exact Text.toNat_ofNat_of_valid hvalid

/-- No character is a surrogate. -/
theorem not_surrogate_toNat (c : Char) :
    ¬ isHighSurrogate c.toNat = true ∧ ¬ isLowSurrogate c.toNat = true := by
  have hvalid : c.toNat < 0xD800 ∨ 0xDFFF < c.toNat ∧ c.toNat < 0x110000 := c.valid
  rw [isHighSurrogate_iff, isLowSurrogate_iff]
  omega

theorem toNat_ofSurrogates {n m : Nat} (hn : isHighSurrogate n = true)
    (hm : isLowSurrogate m = true) :
    (ofSurrogates n m).toNat = 0x10000 + (n - 0xD800) * 0x400 + (m - 0xDC00) := by
  rw [isHighSurrogate_iff] at hn
  rw [isLowSurrogate_iff] at hm
  have hvalid : 0xDFFF < 0x10000 + (n - 0xD800) * 0x400 + (m - 0xDC00) ∧
      0x10000 + (n - 0xD800) * 0x400 + (m - 0xDC00) < 0x110000 := by omega
  exact Text.toNat_ofNat_of_valid (.inr hvalid)

/-- **The two halves of a character beyond U+FFFF are a surrogate pair, and the pair is the
character.** -/
theorem ofSurrogates_halves {c : Char} (hc : 0x10000 ≤ c.toNat) :
    isHighSurrogate (0xD800 + (c.toNat - 0x10000) / 0x400) = true ∧
    isLowSurrogate (0xDC00 + (c.toNat - 0x10000) % 0x400) = true ∧
    ofSurrogates (0xD800 + (c.toNat - 0x10000) / 0x400) (0xDC00 + (c.toNat - 0x10000) % 0x400)
      = c := by
  have hvalid : c.toNat < 0xD800 ∨ 0xDFFF < c.toNat ∧ c.toNat < 0x110000 := c.valid
  have hhigh : isHighSurrogate (0xD800 + (c.toNat - 0x10000) / 0x400) = true := by
    rw [isHighSurrogate_iff]
    omega
  have hlow : isLowSurrogate (0xDC00 + (c.toNat - 0x10000) % 0x400) = true := by
    rw [isLowSurrogate_iff]
    omega
  refine ⟨hhigh, hlow, Char.toNat_inj.mp ?_⟩
  rw [toNat_ofSurrogates hhigh hlow]
  omega

/-- A surrogate pair is the two halves of its character. -/
theorem halves_ofSurrogates {n m : Nat} (hn : isHighSurrogate n = true)
    (hm : isLowSurrogate m = true) :
    0x10000 ≤ (ofSurrogates n m).toNat ∧
    0xD800 + ((ofSurrogates n m).toNat - 0x10000) / 0x400 = n ∧
    0xDC00 + ((ofSurrogates n m).toNat - 0x10000) % 0x400 = m := by
  rw [toNat_ofSurrogates hn hm]
  rw [isHighSurrogate_iff] at hn
  rw [isLowSurrogate_iff] at hm
  omega

end LocaleStrings.Json
