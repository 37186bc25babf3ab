import LocaleStrings.Except
import LocaleStrings.Proofs.Glob.Language
import LocaleStrings.Proofs.Glob.Matcher
import LocaleStrings.Proofs.Source.Units

/-!
# Stars stay inside a directory

Without `**`, brackets and groups a pattern says how deep its paths lie: only its own slashes match
slashes.

* `IsFlat`: patterns whose only wildcards are `?` and single stars;
* `parse_flat`: the pieces of such a pattern are those of its characters;
* `StandsFor`, `Covers`: what a character of such a pattern stands for, and the paths of the pattern;
* `Covers.count_slash`: these paths have as many slashes as the pattern;
* **`Matcher.isMatch_flat`**: a path that such patterns match has as many slashes as one of them that
  matches it.
-/

namespace LocaleStrings.Glob

/-! ## Patterns without directory wildcards -/

/-- A pattern without `**`, brackets, braces and backslashes. -/
structure IsFlat (pattern : Text) : Prop where
  twoStars : ¬ ['*', '*'] <:+: pattern
  bracket : '[' ∉ pattern
  brace : '\x7b' ∉ pattern
  backslash : '\\' ∉ pattern

instance (pattern : Text) : Decidable (IsFlat pattern) :=
  decidable_of_iff
    (¬ ['*', '*'] <:+: pattern ∧ '[' ∉ pattern ∧ '\x7b' ∉ pattern ∧ '\\' ∉ pattern)
    ⟨fun ⟨hstars, hbracket, hbrace, hbackslash⟩ => ⟨hstars, hbracket, hbrace, hbackslash⟩,
      fun h => ⟨h.twoStars, h.bracket, h.brace, h.backslash⟩⟩

/-- The piece of a character in such a pattern. -/
def Piece.ofChar (c : Char) : Piece :=
  if c = '?' then .any else if c = '*' then .star else .literal c

namespace IsFlat

variable {c : Char} {cs : Text}

theorem tail (h : IsFlat (c :: cs)) : IsFlat cs where
  twoStars hstars := h.twoStars (List.infix_cons hstars)
  bracket hmem := h.bracket (List.mem_cons_of_mem c hmem)
  brace hmem := h.brace (List.mem_cons_of_mem c hmem)
  backslash hmem := h.backslash (List.mem_cons_of_mem c hmem)

theorem head_ne (h : IsFlat (c :: cs)) : c ≠ '[' ∧ c ≠ '\x7b' ∧ c ≠ '\\' := by
  refine ⟨?_, ?_, ?_⟩
  · rintro rfl
    exact h.bracket List.mem_cons_self
  · rintro rfl
    exact h.brace List.mem_cons_self
  · rintro rfl
    exact h.backslash List.mem_cons_self

theorem head?_ne_star (h : IsFlat (c :: cs)) (hc : c = '*') : cs.head? ≠ some '*' := by
  intro hhead
  obtain ⟨rest, rfl⟩ := List.head?_eq_some_iff.mp hhead
  exact h.twoStars ⟨[], rest, by rw [hc]; rfl⟩

end IsFlat

/-- Outside of groups each character of the rest adds its piece. -/
theorem parseFrom_flat {cs : Text} (hflat : IsFlat cs) {current : List Piece} {prev : Option Char}
    {p : Progress} (h : parseFrom ⟨current, []⟩ prev cs = .ok p) :
    p = ⟨(cs.map Piece.ofChar).reverse ++ current, []⟩ := by
  induction cs generalizing current prev with
  | nil =>
    rw [parseFrom] at h
    exact (Except.ok.inj h).symm
  | cons c rest ih =>
    suffices hnext : parseFrom ⟨Piece.ofChar c :: current, []⟩ (some c) rest = .ok p by
      rw [ih hflat.tail hnext]
      simp
    obtain ⟨hbracket, hbrace, hbackslash⟩ := hflat.head_ne
    rw [parseFrom.eq_def] at h
    simp only [if_neg hbracket, if_neg hbrace, if_neg hbackslash] at h
    unfold Piece.ofChar
    by_cases hany : c = '?'
    · rwa [if_pos hany] at h ⊢
    rw [if_neg hany] at h ⊢
    by_cases hstar : c = '*'
    · rw [if_pos hstar, if_neg (hflat.head?_ne_star hstar)] at h
      rwa [if_pos hstar]
    rw [if_neg hstar] at h ⊢
    by_cases hclose : c = '\x7d'
    · -- no group is open that could be closed
      rw [if_pos hclose] at h
      cases h
    rw [if_neg hclose] at h
    by_cases hcomma : c = ','
    · rw [if_pos hcomma, hcomma] at h
      rwa [hcomma]
    rwa [if_neg hcomma] at h

/-- **The pieces of a flat pattern are those of its characters.** -/
theorem parse_flat {pattern : Text} (hflat : IsFlat pattern) {pieces : List Piece}
    (h : parse pattern = .ok pieces) : pieces = pattern.map Piece.ofChar := by
  unfold parse at h
  cases hfrom : parseFrom .start none pattern with
  | error e => simp [hfrom, bind, Except.bind] at h
  | ok p =>
    obtain rfl := parseFrom_flat hflat hfrom
    rw [hfrom] at h
    have hpieces : ((pattern.map Piece.ofChar).reverse ++ []).reverse = pieces := Except.ok.inj h
    rw [← hpieces, List.append_nil, List.reverse_reverse]

/-! ## The paths of a flat pattern -/

/-- What a character of a flat pattern stands for: `?` for one byte other than a slash, a star for
any number of them, and any other character for itself. -/
def StandsFor (c : Char) (bytes : List UInt8) : Prop :=
  if c = '?' then ∃ b, b ≠ slash ∧ bytes = [b]
  else if c = '*' then slash ∉ bytes
  else bytes = String.utf8EncodeChar c

/-- A path is made of what the characters of a flat pattern stand for, in order. -/
inductive Covers : Text → List UInt8 → Prop
  | nil : Covers [] []
  | cons {c : Char} {cs : Text} {part rest : List UInt8} (hpart : StandsFor c part)
    (hrest : Covers cs rest) : Covers (c :: cs) (part ++ rest)

theorem count_slash_bytes (t : Text) : t.bytes.count slash = t.count '/' :=
  Text.count_bytes (by decide) t

/-- Only a slash stands for a slash. -/
theorem StandsFor.count_slash {c : Char} {bytes : List UInt8} (h : StandsFor c bytes) :
    bytes.count slash = [c].count '/' := by
  unfold StandsFor at h
  split_ifs at h with hany hstar
  · obtain ⟨b, hb, rfl⟩ := h
    rw [List.count_singleton, if_neg (by simpa using hb), hany]
    rfl
  · rw [List.count_eq_zero_of_not_mem h, hstar]
    rfl
  · rw [h, ← count_slash_bytes]
    simp only [Text.bytes, List.flatMap_singleton]

/-- **A path of a flat pattern has as many slashes as the pattern.** -/
theorem Covers.count_slash {pattern : Text} {path : List UInt8} (h : Covers pattern path) :
    path.count slash = pattern.count '/' := by
  induction h with
  | nil => rfl
  | cons hpart hrest ih =>
    rw [List.count_append, hpart.count_slash, ih, ← List.count_append, List.singleton_append]

open Expression

theorem standsFor_iff_mem_language {c : Char} {bytes : List UInt8} :
    StandsFor c bytes ↔ bytes ∈ languageOfParts (ofPiece (Piece.ofChar c)) := by
  unfold StandsFor Piece.ofChar
  split_ifs
  · rw [ofPiece, languageOfParts_singleton, language_inside]
    exact exists_congr fun b => and_congr_left' bne_iff_ne.symm
  · rw [ofPiece, languageOfParts_singleton, language, language_inside, mem_kstar_oneByte]
    simp only [bne_iff_ne]
    exact ⟨fun h b hb hslash => h (hslash ▸ hb), fun h hmem => h slash hmem rfl⟩
  · rw [ofPiece, mem_languageOfParts_bytes]

theorem covers_iff_mem_language {pattern : Text} {path : List UInt8} :
    Covers pattern path ↔ path ∈ languageOfParts (partsOf (pattern.map Piece.ofChar)) := by
  constructor
  · intro h
    induction h with
    | nil => exact Language.nil_mem_one
    | cons hpart hrest ih =>
      rw [List.map_cons, partsOf, languageOfParts_append]
      exact Language.append_mem_mul (standsFor_iff_mem_language.mp hpart) ih
  · intro h
    induction pattern generalizing path with
    | nil =>
      obtain rfl := (Language.mem_one path).mp h
      exact .nil
    | cons c cs ih =>
      rw [List.map_cons, partsOf, languageOfParts_append] at h
      obtain ⟨part, hpart, rest, hrest, rfl⟩ := Language.mem_mul.mp h
      exact .cons (standsFor_iff_mem_language.mpr hpart) (ih hrest)

theorem not_isEverything_flat (pattern : Text) :
    isEverything (pattern.map Piece.ofChar) = false := by
  cases pattern with
  | nil => rfl
  | cons c cs =>
    rw [List.map_cons, Piece.ofChar]
    split_ifs <;> rfl

/-- The way to look a flat pattern up only takes paths away, and only such as name no file. -/
theorem finds_flat_iff {pattern path : Text} {pieces : List Piece} (hflat : IsFlat pattern)
    (hparse : parse pattern = .ok pieces) :
    finds pieces path = true ↔ Covers pattern path.bytes ∧
      ((Lookup.ofPieces pieces).asksName && namesParent path) = false := by
  obtain rfl := parse_flat hflat hparse
  rw [finds, Bool.and_eq_true, Bool.not_eq_true', isMatch_iff_mem_language, ofPieces,
    not_isEverything_flat, covers_iff_mem_language]
  rfl

namespace Matcher

/-- The pattern can be used, and matches the path when there is no other one. -/
def MatchesAlone (pattern path : Text) : Prop :=
  ∃ m, ofPatterns [pattern] = .ok m ∧ m.isMatch path = true

theorem matchesAlone_iff {pattern path : Text} :
    MatchesAlone pattern path ↔ ∃ g, CompilesTo pattern g ∧ finds g path = true := by
  constructor
  · rintro ⟨m, hm, hmatch⟩
    obtain ⟨p, hp, hfinds⟩ := (isMatch_iff hm).mp hmatch
    rwa [List.mem_singleton.mp hp] at hfinds
  · rintro ⟨g, hg, hfinds⟩
    obtain ⟨m, hm⟩ := exists_ofPatterns_iff.mpr fun p hp => ⟨g, List.mem_singleton.mp hp ▸ hg⟩
    exact ⟨m, hm, (isMatch_iff hm).mpr ⟨pattern, List.mem_singleton_self _, g, hg, hfinds⟩⟩

/-- **Flat patterns match at their own depth only.** If a matcher of flat patterns matches a path,
one of the patterns does, and the path has as many slashes as this pattern. A path whose last part
is not `..` is matched exactly if one of the patterns covers it. -/
theorem isMatch_flat {ps : List Text} {m : Matcher} (h : ofPatterns ps = .ok m)
    (hflat : ∀ p ∈ ps, IsFlat p) (path : Text) :
    (m.isMatch path = true → ∃ p ∈ ps, MatchesAlone p path ∧ path.count '/' = p.count '/') ∧
    (namesParent path = false → (m.isMatch path = true ↔ ∃ p ∈ ps, Covers p path.bytes)) := by
  have hcovers : ∀ p ∈ ps, ∀ g, CompilesTo p g → finds g path = true → Covers p path.bytes :=
    fun p hp g hg hfinds => ((finds_flat_iff (hflat p hp) hg.1).mp hfinds).1
  constructor
  · intro hmatch
    obtain ⟨p, hp, g, hg, hfinds⟩ := (isMatch_iff h).mp hmatch
    refine ⟨p, hp, matchesAlone_iff.mpr ⟨g, hg, hfinds⟩, ?_⟩
    rw [← count_slash_bytes]
    exact (hcovers p hp g hg hfinds).count_slash
  · intro hparent
    rw [isMatch_iff h]
    constructor
    · rintro ⟨p, hp, g, hg, hfinds⟩
      exact ⟨p, hp, hcovers p hp g hg hfinds⟩
    · rintro ⟨p, hp, hpath⟩
      obtain ⟨g, hg⟩ := exists_ofPatterns_iff.mp ⟨m, h⟩ p hp
      refine ⟨p, hp, g, hg, (finds_flat_iff (hflat p hp) hg.1).mpr ⟨hpath, ?_⟩⟩
      rw [hparent, Bool.and_false]

/-- Patterns for files of one directory and of the directory above it. -/
def localeFiles : List Text := ["*.json".toList, "locales/?*.json".toList]

/-- A file of the directory is matched, a file further down is not. -/
theorem localeFiles_flat :
    (∀ p ∈ localeFiles, IsFlat p) ∧
    ∃ m, ofPatterns localeFiles = .ok m ∧
      m.isMatch "locales/日本.json".toList = true ∧
      (∃ p ∈ localeFiles, MatchesAlone p "locales/日本.json".toList ∧
        "locales/日本.json".toList.count '/' = p.count '/') ∧
      m.isMatch "locales/ja/index.json".toList = false := by
  have hflat : ∀ p ∈ localeFiles, IsFlat p := by decide +kernel
  have hshown : (ofPatterns localeFiles).map (fun m =>
      (m.isMatch "locales/日本.json".toList, m.isMatch "locales/ja/index.json".toList))
      = .ok (true, false) := by
    decide +kernel
  obtain ⟨m, hm, hshown⟩ := Except.exists_of_map_eq_ok hshown
  obtain ⟨hmatch, hdeeper⟩ := Prod.mk.inj hshown
  exact ⟨hflat, m, hm, hmatch, (isMatch_flat hm hflat _).1 hmatch, hdeeper⟩

end Matcher

end LocaleStrings.Glob
