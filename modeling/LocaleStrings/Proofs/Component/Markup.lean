import LocaleStrings.Component.Block
import Mathlib.Data.List.Infix

/-!
# The markup of components

What a component may be written with, piece by piece. Every piece carries the conditions under
which it is well-formed; `text` gives its characters, and `meaning` what it stands for.

* `Gap`, `TagName`: blanks, and the names of tags;
* `WrittenAttr`: an attribute with the blanks before it, bare or with a value;
* `Tag`: an opening or self-closing tag behind its `<`;
* `ClosingTag`: a closing tag;
* `TemplateBody`: texts in which templates are balanced;
* **`Item`**: a top-level piece of a component, with the blocks that it makes up.
-/

namespace LocaleStrings.Component

/-! ## Tags -/

/-- Blanks, or nothing. -/
structure Gap where
  text : Text
  blank : ∀ c ∈ text, Ascii.isBlank c = true

/-- The name of a tag: a letter, and letters, digits, `-`, `_`, `:` or `.` behind it. -/
structure TagName where
  first : Char
  others : Text
  letter : Ascii.isLetter first = true
  chars : ∀ c ∈ others, isNameChar c = true

/-- The characters of a name. -/
def TagName.text (n : TagName) : Text := n.first :: n.others

/-- How the value of an attribute is written. -/
inductive WrittenValue where
  /-- There is none. -/
  | bare
  /-- Between quotes, with blanks around the equals sign. -/
  | quoted (before after : Gap) (quote : Char) (value : Text)
      (hquote : quote = '"' ∨ quote = '\'') (hvalue : quote ∉ value)
  /-- Without quotes, up to a blank or the end of the tag. -/
  | unquoted (before after : Gap) (first : Char) (others : Text)
      (hfirst : ¬ (first = '"' ∨ first = '\''))
      (hbare : ∀ c ∈ first :: others, isBareValueChar c = true)

namespace WrittenValue

/-- The characters of a value, behind the name. -/
def text : WrittenValue → Text
  | bare => []
  | quoted before after quote value _ _ =>
    before.text ++ '=' :: (after.text ++ quote :: (value ++ [quote]))
  | unquoted before after first others _ _ => before.text ++ '=' :: (after.text ++ first :: others)

/-- The value itself. -/
def meaning : WrittenValue → Option Text
  | bare => none
  | quoted _ _ _ value _ _ => some value
  | unquoted _ _ first others _ _ => some (first :: others)

/-- Whether the value has no quotes, so that a slash behind it would belong to it. -/
def isUnquoted : WrittenValue → Bool
  | unquoted .. => true
  | bare | quoted .. => false

end WrittenValue

/-- An attribute of a tag, with the blanks before it. -/
structure WrittenAttr where
  gap : Gap
  gap_ne : gap.text ≠ []
  first : Char
  others : Text
  chars : ∀ c ∈ first :: others, isAttrNameChar c = true
  value : WrittenValue

namespace WrittenAttr

/-- The characters of an attribute. -/
def text (a : WrittenAttr) : Text := a.gap.text ++ (a.first :: a.others ++ a.value.text)

/-- The name and the value. -/
def meaning (a : WrittenAttr) : Attribute := ⟨a.first :: a.others, a.value.meaning⟩

end WrittenAttr

/-- A tag behind its `<`. A slash right behind a value without quotes would belong to the value, so
blanks must come before it. -/
structure Tag where
  name : TagName
  attrs : List WrittenAttr
  gap : Gap
  selfClosing : Bool
  ends : selfClosing = true → gap.text = [] → ∀ a ∈ attrs.getLast?, a.value.isUnquoted = false

/-- The end of a tag. -/
def tagEnd (selfClosing : Bool) : Text := if selfClosing then ['/', '>'] else ['>']

namespace Tag

/-- The characters of a tag behind its `<`. -/
def text (t : Tag) : Text :=
  t.name.text ++ (t.attrs.flatMap WrittenAttr.text ++ (t.gap.text ++ tagEnd t.selfClosing))

/-- What a tag stands for. -/
def meaning (t : Tag) : OpenTag := ⟨t.name.text, t.attrs.map WrittenAttr.meaning, t.selfClosing⟩

end Tag

/-- A closing tag of the element `opened`, in any case. -/
structure ClosingTag (opened : Text) where
  name : Text
  same : Ascii.sameIgnoringCase name opened = true
  gap : Gap

/-- The characters of a closing tag. -/
def ClosingTag.text {opened : Text} (t : ClosingTag opened) : Text :=
  '<' :: '/' :: (t.name ++ (t.gap.text ++ ['>']))

/-! ## Contents -/

/-- Texts that end no comment. -/
def EndsNoComment (c : Text) : Prop := ¬ ['-', '-', '>'] <:+: c

/-- Texts in which no closing tag of the given name starts, in any case. -/
def ClosesNone (name c : Text) : Prop :=
  ¬ ('<' :: '/' :: name.map Ascii.lower) <:+: c.map Ascii.lower

/-- Whether a name is the one of templates, in any case. -/
def isTemplateName (name : Text) : Bool := Ascii.sameIgnoringCase name templateName

/-- A text does not go on with a character of a name. -/
def EndsName (rest : Text) : Prop := ∀ c ∈ rest.head?, isNameChar c = false

/-- **Texts in which templates are balanced.** Comments are left out, and so is every other tag: a
`<` counts only if it starts a comment or a tag of a template. -/
inductive TemplateBody : Text → Prop
  | nil : TemplateBody []
  | char {c : Char} {rest : Text} (hc : c ≠ '<') (h : TemplateBody rest) : TemplateBody (c :: rest)
  | comment {c rest : Text} (hc : EndsNoComment c) (h : TemplateBody rest) :
      TemplateBody (['<', '!', '-', '-'] ++ (c ++ (['-', '-', '>'] ++ rest)))
  /-- The beginning of another tag. -/
  | other {n : TagName} {rest : Text} (hn : isTemplateName n.text = false) (hr : EndsName rest)
      (h : TemplateBody rest) : TemplateBody ('<' :: (n.text ++ rest))
  /-- The beginning of another closing tag. -/
  | otherClosing {n : TagName} {rest : Text} (hn : isTemplateName n.text = false)
      (hr : EndsName rest) (h : TemplateBody rest) : TemplateBody ('<' :: '/' :: (n.text ++ rest))
  /-- A `<` or `</` before no name. -/
  | stray {rest : Text} (hr : ∀ c ∈ rest.head?, Ascii.isLetter c = false ∧ c ≠ '/')
      (hcomment : ¬ ['!', '-', '-'] <+: rest) (h : TemplateBody rest) : TemplateBody ('<' :: rest)
  | strayClosing {rest : Text} (hr : ∀ c ∈ rest.head?, Ascii.isLetter c = false)
      (h : TemplateBody rest) : TemplateBody ('<' :: '/' :: rest)
  /-- A template that closes itself. -/
  | selfClosing {t : Tag} {rest : Text} (ht : isTemplateName t.name.text = true)
      (hs : t.selfClosing = true) (h : TemplateBody rest) : TemplateBody ('<' :: (t.text ++ rest))
  /-- A template inside. -/
  | template {t : Tag} {body rest : Text} (ht : isTemplateName t.name.text = true)
      (hs : t.selfClosing = false) (hb : TemplateBody body) (close : ClosingTag t.name.text)
      (h : TemplateBody rest) : TemplateBody ('<' :: (t.text ++ (body ++ (close.text ++ rest))))

/-! ## Items -/

/-- **A top-level piece of a component.** -/
inductive Item where
  | text (t : Text) (ht : '<' ∉ t)
  | comment (c : Text) (hc : EndsNoComment c)
  /-- A declaration, as `<!DOCTYPE html>`. -/
  | declaration (x : Text) (hx : '>' ∉ x) (hcomment : ¬ ['-', '-'] <+: x)
  /-- An instruction, as `<?xml?>`. -/
  | instruction (x : Text) (hx : '>' ∉ x)
  | selfClosing (t : Tag) (ht : t.selfClosing = true)
  /-- An element whose content is not looked into. -/
  | raw (t : Tag) (ht : t.selfClosing = false) (hname : isTemplateName t.name.text = false)
      (content : Text) (hcontent : ClosesNone t.name.text content)
      (close : ClosingTag t.name.text)
  /-- A template. -/
  | template (t : Tag) (ht : t.selfClosing = false) (hname : isTemplateName t.name.text = true)
      (content : Text) (hcontent : TemplateBody content) (close : ClosingTag t.name.text)

namespace Item

/-- The characters of an item. -/
def chars : Item → Text
  | text t _ => t
  | comment c _ => ['<', '!', '-', '-'] ++ (c ++ ['-', '-', '>'])
  | declaration x _ _ => '<' :: '!' :: (x ++ ['>'])
  | instruction x _ => '<' :: '?' :: (x ++ ['>'])
  | selfClosing t _ => '<' :: t.text
  | raw t _ _ content _ close | template t _ _ content _ close =>
    '<' :: (t.text ++ (content ++ close.text))

/-- The block of a tag that starts at byte `offset`, with its content. -/
def block (offset : Nat) (t : Tag) (content : Text) : Block :=
  let start := offset + Text.size ('<' :: t.text)
  ⟨t.name.text, t.attrs.map WrittenAttr.meaning, content, start, start + Text.size content⟩

/-- The blocks of an item that starts at byte `offset`. -/
def blocks (offset : Nat) : Item → List Block
  | text .. | comment .. | declaration .. | instruction .. => []
  | selfClosing t _ => [block offset t []]
  | raw t _ _ content _ _ | template t _ _ content _ _ => [block offset t content]

end Item

/-- The characters of items, one behind the other. -/
def charsOf (items : List Item) : Text := items.flatMap Item.chars

/-- The blocks of items, the first of which starts at byte `offset`. -/
def blocksOf (offset : Nat) : List Item → List Block
  | [] => []
  | i :: is => i.blocks offset ++ blocksOf (offset + Text.size i.chars) is

/-- A block moved forward. -/
def Block.shift (k : Nat) (b : Block) : Block := { b with start := b.start + k, stop := b.stop + k }

end LocaleStrings.Component
