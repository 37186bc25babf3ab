import LocaleStrings.Text.Ascii

/-!
# Opening tags

An opening tag is a name, attributes and `>` or `/>`. Attribute values may be quoted, and then
hold any character but their quote. A tag that is not closed is no tag.

* `Attribute`, `OpenTag`: what an opening tag says;
* `attributes?`: the attributes behind a name, up to the end of the tag;
* `openTag?`: the opening tag behind a `<`, and what follows it.
-/

namespace LocaleStrings.Component

/-- An attribute of a tag. -/
structure Attribute where
  name : Text
  /-- The value, if one is written. -/
  value : Option Text
deriving DecidableEq, Repr

/-- What an opening tag says. -/
structure OpenTag where
  /-- The name as written. -/
  name : Text
  attrs : List Attribute
  /-- Whether the tag closes itself, as `<br/>` does. -/
  selfClosing : Bool
deriving DecidableEq, Repr

/-- How many elements are open behind the tag that were not before it. -/
def OpenTag.opened (tag : OpenTag) : Nat := if tag.selfClosing then 0 else 1

/-- Characters of a tag name behind the first. -/
def isNameChar (c : Char) : Bool :=
  Ascii.isLetter c || Ascii.isDigit c || c == '-' || c == '_' || c == ':' || c == '.'

/-- Characters of an attribute name. -/
def isAttrNameChar (c : Char) : Bool := !(Ascii.isBlank c || c == '=' || c == '>' || c == '/')

/-- Characters of an attribute value without quotes. -/
def isBareValueChar (c : Char) : Bool := !(Ascii.isBlank c || c == '>')

/-- Leaves out blanks. -/
def skipBlanks (cs : Text) : Text := cs.dropWhile Ascii.isBlank

/-- The value of an attribute, and what follows it; none if a quote is not closed or the text
ends. -/
def attrValue? : Text → Option (Text × Text)
  | [] => none
  | c :: cs =>
    if c = '"' ∨ c = '\'' then
      match cs.dropWhile (· != c) with
      | [] => none
      | _ :: rest => some (cs.takeWhile (· != c), rest)
    else some ((c :: cs).takeWhile isBareValueChar, (c :: cs).dropWhile isBareValueChar)

/-- The attribute at the beginning of a text that starts with a character of its name, and what
follows it. -/
def attribute? (cs : Text) : Option (Attribute × Text) :=
  let name := cs.takeWhile isAttrNameChar
  let behind := cs.dropWhile isAttrNameChar
  match skipBlanks behind with
  | '=' :: rest =>
    (attrValue? (skipBlanks rest)).map fun (value, rest) => (⟨name, some value⟩, rest)
  | _ => some (⟨name, none⟩, behind)

theorem length_skipBlanks (cs : Text) : (skipBlanks cs).length ≤ cs.length :=
  (List.dropWhile_sublist _).length_le

theorem length_attrValue? {cs value rest : Text} (h : attrValue? cs = some (value, rest)) :
    rest.length ≤ cs.length := by
  cases cs with
  | nil => cases h
  | cons c cs =>
    rw [attrValue?] at h
    split at h
    · split at h
      · cases h
      · next x rest' hd =>
        cases h
        have := (List.dropWhile_sublist (· != c) (l := cs)).length_le
        rw [hd] at this
        simp only [List.length_cons] at this ⊢
        omega
    · cases h
      exact (List.dropWhile_sublist _).length_le

theorem length_attribute? {c : Char} {cs : Text} {a : Attribute} {rest : Text}
    (hc : isAttrNameChar c = true) (h : attribute? (c :: cs) = some (a, rest)) :
    rest.length < (c :: cs).length := by
  have behind : ((c :: cs).dropWhile isAttrNameChar).length ≤ cs.length := by
    rw [List.dropWhile_cons, if_pos hc]
    exact (List.dropWhile_sublist _).length_le
  simp only [attribute?] at h
  split at h
  · next r hr =>
    simp only [Option.map_eq_some_iff] at h
    obtain ⟨⟨v, r'⟩, hv, he⟩ := h
    cases he
    have h₁ := length_skipBlanks ((c :: cs).dropWhile isAttrNameChar)
    rw [hr] at h₁
    have h₂ := length_attrValue? hv
    have h₃ := length_skipBlanks r
    simp only [List.length_cons] at h₁ ⊢
    omega
  · cases h
    simp only [List.length_cons]
    omega

/-- The attributes up to the end of a tag, whether the tag closes itself, and what follows it. A
`/` or `=` where a name could start is passed over. -/
def attributes? (cs : Text) : Option (List Attribute × Bool × Text) :=
  match _h : skipBlanks cs with
  | [] => none
  | c :: rest =>
    if c = '>' then some ([], false, rest)
    else if c = '/' ∧ rest.head? = some '>' then some ([], true, rest.drop 1)
    else if _hc : isAttrNameChar c then
      match _ha : attribute? (c :: rest) with
      | none => none
      | some (a, rest) =>
        (attributes? rest).map fun (attrs, selfClosing, rest) => (a :: attrs, selfClosing, rest)
    else attributes? rest
termination_by cs.length
decreasing_by
  · have h₁ := length_skipBlanks cs
    have h₂ := length_attribute? _hc _ha
    rw [_h] at h₁
    omega
  · have h₁ := length_skipBlanks cs
    rw [_h] at h₁
    simp only [List.length_cons] at h₁
    omega

/-- The opening tag behind a `<`, and what follows it. -/
def openTag? : Text → Option (OpenTag × Text)
  | [] => none
  | c :: cs =>
    if Ascii.isLetter c then
      (attributes? (cs.dropWhile isNameChar)).map fun (attrs, selfClosing, rest) =>
        (⟨c :: cs.takeWhile isNameChar, attrs, selfClosing⟩, rest)
    else none

theorem length_attributes? {cs rest : Text} {attrs : List Attribute} {selfClosing : Bool}
    (h : attributes? cs = some (attrs, selfClosing, rest)) : rest.length < cs.length := by
  fun_induction attributes? cs generalizing attrs selfClosing rest with
  | case1 => cases h
  | case2 cs rest' hs =>
    cases h
    have := length_skipBlanks cs
    rw [hs] at this
    exact this
  | case3 cs c rest' hs _ _ =>
    cases h
    have := length_skipBlanks cs
    rw [hs] at this
    simp only [List.length_cons, List.length_drop] at this ⊢
    omega
  | case4 => cases h
  | case5 cs c rest' hs _ _ hc a rest₂ ha ih =>
    simp only [Option.map_eq_some_iff] at h
    obtain ⟨⟨as, sc, r⟩, hr, he⟩ := h
    cases he
    have h₁ := length_skipBlanks cs
    have h₂ := length_attribute? hc ha
    have h₃ := ih hr
    rw [hs] at h₁
    exact Nat.lt_of_lt_of_le (Nat.lt_trans h₃ h₂) h₁
  | case6 cs c rest' hs _ _ _ ih =>
    have h₁ := length_skipBlanks cs
    have h₂ := ih h
    rw [hs] at h₁
    simp only [List.length_cons] at h₁
    omega

theorem length_openTag? {cs rest : Text} {tag : OpenTag} (h : openTag? cs = some (tag, rest)) :
    rest.length < cs.length := by
  cases cs with
  | nil => cases h
  | cons c cs =>
    rw [openTag?] at h
    split at h
    · simp only [Option.map_eq_some_iff] at h
      obtain ⟨⟨as, sc, r⟩, hr, he⟩ := h
      cases he
      have h₁ := length_attributes? hr
      have h₂ := (List.dropWhile_sublist isNameChar (l := cs)).length_le
      simp only [List.length_cons]
      omega
    · cases h

end LocaleStrings.Component
