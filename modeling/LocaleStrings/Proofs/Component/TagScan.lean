import LocaleStrings.Proofs.Component.Markup
import LocaleStrings.Proofs.Source.Offsets

/-!
# Scanning tags

A well-formed tag is scanned as what it stands for, whatever follows it.

* `Follows`: what may come behind an attribute;
* `attribute?_text`, `attributes?_text`: attributes are scanned one by one;
* **`openTag?_text`**: a tag is scanned whole.
-/

namespace LocaleStrings.Component

/-! ## Blanks -/

theorem skipBlanks_gap (g : Gap) {r : Text} (hr : ∀ c ∈ r.head?, Ascii.isBlank c = false) :
    skipBlanks (g.text ++ r) = r :=
  Text.dropWhile_append_of_stop g.blank hr

/-- Blanks and a character start with a blank or with the character. -/
theorem head_gap (g : Gap) (d : Char) (r : Text) :
    ∀ c ∈ (g.text ++ d :: r).head?, Ascii.isBlank c = true ∨ c = d := by
  intro c hc
  cases hg : g.text with
  | nil =>
    rw [hg] at hc
    exact .inr (by simpa using hc.symm)
  | cons b bs =>
    rw [hg] at hc
    obtain rfl : b = c := by simpa using hc
    exact .inl (g.blank b (by rw [hg]; exact List.mem_cons_self))

theorem isAttrNameChar_of_isBlank {c : Char} (h : Ascii.isBlank c = true) :
    isAttrNameChar c = false := by
  simp [isAttrNameChar, h]

theorem isBlank_of_isAttrNameChar {c : Char} (h : isAttrNameChar c = true) :
    Ascii.isBlank c = false := by
  simp only [isAttrNameChar, Bool.not_eq_true', Bool.or_eq_false_iff] at h
  exact h.1.1.1

theorem isBlank_of_isBareValueChar {c : Char} (h : isBareValueChar c = true) :
    Ascii.isBlank c = false := by
  simp only [isBareValueChar, Bool.not_eq_true', Bool.or_eq_false_iff] at h
  exact h.1

/-! ## Attributes -/

/-- The text `r` may come behind an attribute with the value `v`. -/
structure Follows (v : WrittenValue) (r : Text) : Prop where
  stops : ∀ c ∈ r.head?, Ascii.isBlank c = true ∨ c = '>' ∨ (c = '/' ∧ v.isUnquoted = false)
  noEquals : (skipBlanks r).head? ≠ some '='

theorem attrValue?_quoted {quote : Char} (hquote : quote = '"' ∨ quote = '\'') {value : Text}
    (hvalue : quote ∉ value) (r : Text) :
    attrValue? (quote :: (value ++ quote :: r)) = some (value, r) := by
  have hinside : ∀ c ∈ value, (c != quote) = true := by
    intro c hc
    rw [bne_iff_ne]
    rintro rfl
    exact hvalue hc
  have hstop : ∀ c ∈ (quote :: r).head?, (c != quote) = false := by simp
  rw [attrValue?, if_pos hquote, Text.dropWhile_append_of_stop hinside hstop,
    Text.takeWhile_append_of_stop hinside hstop]

theorem attrValue?_unquoted {first : Char} {others r : Text}
    (hfirst : ¬ (first = '"' ∨ first = '\''))
    (hbare : ∀ c ∈ first :: others, isBareValueChar c = true)
    (hr : ∀ c ∈ r.head?, isBareValueChar c = false) :
    attrValue? (first :: others ++ r) = some (first :: others, r) := by
  have htake := Text.takeWhile_append_of_stop hbare hr
  have hdrop := Text.dropWhile_append_of_stop hbare hr
  rw [List.cons_append] at htake hdrop ⊢
  rw [attrValue?, if_neg hfirst, htake, hdrop]

/-- An attribute whose value is read behind blanks, an equals sign and blanks. -/
theorem attribute?_of_value {name value x rest : Text} (hname : ∀ c ∈ name, isAttrNameChar c = true)
    (before after : Gap) (hx : ∀ c ∈ x.head?, Ascii.isBlank c = false)
    (hvalue : attrValue? x = some (value, rest)) :
    attribute? (name ++ (before.text ++ '=' :: (after.text ++ x)))
      = some (⟨name, some value⟩, rest) := by
  have hstop : ∀ c ∈ (before.text ++ '=' :: (after.text ++ x)).head?, isAttrNameChar c = false := by
    intro c hc
    rcases head_gap before '=' _ c hc with hblank | rfl
    · exact isAttrNameChar_of_isBlank hblank
    · rfl
  have hequals : skipBlanks (before.text ++ '=' :: (after.text ++ x)) = '=' :: (after.text ++ x) :=
    skipBlanks_gap before (by simp; decide)
  simp only [attribute?, Text.takeWhile_append_of_stop hname hstop,
    Text.dropWhile_append_of_stop hname hstop, hequals, skipBlanks_gap after hx, hvalue]
  rfl

theorem attribute?_bare {name r : Text} (hname : ∀ c ∈ name, isAttrNameChar c = true)
    (hr : Follows .bare r) : attribute? (name ++ r) = some (⟨name, none⟩, r) := by
  have hstop : ∀ c ∈ r.head?, isAttrNameChar c = false := by
    intro c hc
    rcases hr.stops c hc with hblank | rfl | ⟨rfl, -⟩
    · exact isAttrNameChar_of_isBlank hblank
    · rfl
    · rfl
  simp only [attribute?, Text.takeWhile_append_of_stop hname hstop,
    Text.dropWhile_append_of_stop hname hstop]
  split
  · next rest hequals => exact absurd (by rw [hequals]; rfl) hr.noEquals
  · rfl

/-- **An attribute is scanned whole.** -/
theorem attribute?_text (a : WrittenAttr) {r : Text} (hr : Follows a.value r) :
    attribute? (a.first :: a.others ++ (a.value.text ++ r)) = some (a.meaning, r) := by
  obtain ⟨gap, gap_ne, first, others, chars, value⟩ := a
  simp only [WrittenAttr.meaning] at hr ⊢
  cases value with
  | bare => exact attribute?_bare chars hr
  | quoted before after quote value hquote hvalue =>
    have hx : ∀ c ∈ (quote :: (value ++ quote :: r)).head?, Ascii.isBlank c = false := by
      rcases hquote with rfl | rfl <;> simp <;> decide
    have hread := attribute?_of_value chars before after hx (attrValue?_quoted hquote hvalue r)
    simpa [WrittenValue.text, WrittenValue.meaning] using hread
  | unquoted before after x xs hfirst hbare =>
    have hx : ∀ c ∈ (x :: xs ++ r).head?, Ascii.isBlank c = false := by
      simpa using isBlank_of_isBareValueChar (hbare x List.mem_cons_self)
    have hstop : ∀ c ∈ r.head?, isBareValueChar c = false := by
      intro c hc
      rcases hr.stops c hc with hblank | rfl | ⟨-, h⟩
      · simp [isBareValueChar, hblank]
      · rfl
      · cases h
    have hread := attribute?_of_value chars before after hx (attrValue?_unquoted hfirst hbare hstop)
    simpa [WrittenValue.text, WrittenValue.meaning] using hread

/-! ## Tags -/

theorem attributes?_close {cs rest : Text} (h : skipBlanks cs = '>' :: rest) :
    attributes? cs = some ([], false, rest) := by
  rw [attributes?]
  split
  · next hnil =>
    rw [h] at hnil
    cases hnil
  · next c r hcons =>
    obtain ⟨rfl, rfl⟩ := List.cons.inj (h.symm.trans hcons)
    rw [if_pos rfl]

theorem attributes?_selfClose {cs rest : Text} (h : skipBlanks cs = '/' :: '>' :: rest) :
    attributes? cs = some ([], true, rest) := by
  rw [attributes?]
  split
  · next hnil =>
    rw [h] at hnil
    cases hnil
  · next c r hcons =>
    obtain ⟨rfl, rfl⟩ := List.cons.inj (h.symm.trans hcons)
    rw [if_neg (by decide), if_pos ⟨rfl, rfl⟩]
    rfl

theorem attributes?_cons {cs r rest : Text} {c : Char} {a : Attribute}
    (h : skipBlanks cs = c :: r) (hc : isAttrNameChar c = true)
    (ha : attribute? (c :: r) = some (a, rest)) :
    attributes? cs = (attributes? rest).map fun (attrs, s, rest) => (a :: attrs, s, rest) := by
  have hclose : c ≠ '>' := by
    rintro rfl
    cases hc
  have hslash : c ≠ '/' := by
    rintro rfl
    cases hc
  rw [attributes?]
  split
  · next hnil =>
    rw [h] at hnil
    cases hnil
  · next c' r' hcons =>
    obtain ⟨rfl, rfl⟩ := List.cons.inj (h.symm.trans hcons)
    rw [if_neg hclose, if_neg (fun hboth => hslash hboth.1), dif_pos hc]
    split
    · next hnone =>
      rw [ha] at hnone
      cases hnone
    · next hsome =>
      rw [ha] at hsome
      cases hsome
      rfl

theorem attributes?_tagEnd (gap : Gap) (selfClosing : Bool) (rest : Text) :
    attributes? (gap.text ++ (tagEnd selfClosing ++ rest)) = some ([], selfClosing, rest) := by
  cases selfClosing with
  | false => exact attributes?_close (skipBlanks_gap gap (by simp [tagEnd]; decide))
  | true => exact attributes?_selfClose (skipBlanks_gap gap (by simp [tagEnd]; decide))

theorem follows_tagEnd {v : WrittenValue} {gap : Gap} {selfClosing : Bool}
    (h : selfClosing = true → gap.text = [] → v.isUnquoted = false) (rest : Text) :
    Follows v (gap.text ++ (tagEnd selfClosing ++ rest)) := by
  constructor
  · intro c hc
    cases selfClosing with
    | false =>
      rcases head_gap gap '>' _ c hc with hblank | rfl
      · exact .inl hblank
      · exact .inr (.inl rfl)
    | true =>
      by_cases hgap : gap.text = []
      · rw [hgap] at hc
        obtain rfl : '/' = c := by simpa [tagEnd] using hc
        exact .inr (.inr ⟨rfl, h rfl hgap⟩)
      · obtain ⟨b, bs, hb⟩ := List.exists_cons_of_ne_nil hgap
        rw [hb] at hc
        obtain rfl : b = c := by simpa using hc
        exact .inl (gap.blank b (by rw [hb]; exact List.mem_cons_self))
  · cases selfClosing with
    | false =>
      rw [skipBlanks_gap gap (by simp [tagEnd]; decide)]
      simp [tagEnd]
    | true =>
      rw [skipBlanks_gap gap (by simp [tagEnd]; decide)]
      simp [tagEnd]

theorem skipBlanks_attr (a : WrittenAttr) (r : Text) :
    skipBlanks (a.text ++ r) = a.first :: a.others ++ (a.value.text ++ r) := by
  have hfirst := isBlank_of_isAttrNameChar (a.chars a.first List.mem_cons_self)
  rw [WrittenAttr.text, List.append_assoc, List.append_assoc]
  exact skipBlanks_gap a.gap (by simpa using hfirst)

theorem follows_attr (v : WrittenValue) (a : WrittenAttr) (r : Text) : Follows v (a.text ++ r) := by
  constructor
  · intro c hc
    obtain ⟨b, bs, hb⟩ := List.exists_cons_of_ne_nil a.gap_ne
    rw [WrittenAttr.text, hb] at hc
    obtain rfl : b = c := by simpa using hc
    exact .inl (a.gap.blank b (by rw [hb]; exact List.mem_cons_self))
  · rw [skipBlanks_attr]
    intro hequals
    have hfirst : a.first = '=' := by simpa using hequals
    have hname := a.chars a.first List.mem_cons_self
    rw [hfirst] at hname
    cases hname

/-- **Attributes are scanned one by one, up to the end of the tag.** -/
theorem attributes?_text {attrs : List WrittenAttr} {gap : Gap} {selfClosing : Bool}
    (ends : selfClosing = true → gap.text = [] → ∀ a ∈ attrs.getLast?, a.value.isUnquoted = false)
    (rest : Text) :
    attributes? (attrs.flatMap WrittenAttr.text ++ (gap.text ++ (tagEnd selfClosing ++ rest)))
      = some (attrs.map WrittenAttr.meaning, selfClosing, rest) := by
  induction attrs with
  | nil => exact attributes?_tagEnd gap selfClosing rest
  | cons a as ih =>
    rw [List.flatMap_cons, List.append_assoc]
    have hfollows : Follows a.value
        (as.flatMap WrittenAttr.text ++ (gap.text ++ (tagEnd selfClosing ++ rest))) := by
      cases as with
      | nil => exact follows_tagEnd (fun hs hg => ends hs hg a rfl) rest
      | cons a' as' =>
        rw [List.flatMap_cons, List.append_assoc]
        exact follows_attr _ _ _
    have hlast : selfClosing = true → gap.text = [] →
        ∀ a' ∈ as.getLast?, a'.value.isUnquoted = false := by
      intro hs hg a' ha'
      refine ends hs hg a' ?_
      rw [List.getLast?_cons, Option.mem_def.mp ha']
      rfl
    rw [attributes?_cons (skipBlanks_attr a _) (a.chars _ List.mem_cons_self)
      (attribute?_text a hfollows), ih hlast]
    rfl

theorem isNameChar_of_isBlank {c : Char} (h : Ascii.isBlank c = true) : isNameChar c = false := by
  simp only [Ascii.isBlank, Bool.or_eq_true, beq_iff_eq] at h
  rcases h with (((rfl | rfl) | rfl) | rfl) | rfl <;> rfl

/-- What may come behind a bare attribute ends a name. -/
theorem Follows.endsName {v : WrittenValue} {r : Text} (h : Follows v r) : EndsName r := by
  intro c hc
  rcases h.stops c hc with hblank | rfl | ⟨rfl, -⟩
  · exact isNameChar_of_isBlank hblank
  · rfl
  · rfl

/-- The name that is scanned goes up to the first character that no name has. -/
theorem openTag?_name (n : TagName) {r : Text} (hr : EndsName r) :
    openTag? (n.text ++ r) = (attributes? r).map fun (attrs, selfClosing, rest) =>
      (⟨n.text, attrs, selfClosing⟩, rest) := by
  rw [TagName.text, List.cons_append, openTag?, if_pos n.letter,
    Text.dropWhile_append_of_stop n.chars hr, Text.takeWhile_append_of_stop n.chars hr]

/-- **A tag is scanned whole, whatever follows it.** -/
theorem openTag?_text (t : Tag) (rest : Text) :
    openTag? (t.text ++ rest) = some (t.meaning, rest) := by
  have hbehind : EndsName
      (t.attrs.flatMap WrittenAttr.text ++ (t.gap.text ++ (tagEnd t.selfClosing ++ rest))) := by
    cases t.attrs with
    | nil => exact (follows_tagEnd (v := .bare) (fun _ _ => rfl) rest).endsName
    | cons a as =>
      rw [List.flatMap_cons, List.append_assoc]
      exact (follows_attr .bare a _).endsName
  rw [Tag.text, List.append_assoc, List.append_assoc, List.append_assoc,
    openTag?_name t.name hbehind, attributes?_text t.ends]
  rfl

end LocaleStrings.Component
