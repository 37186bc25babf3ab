import LocaleStrings.Source.Locate

/-!
# Anchors

A region of a text is read on its own. Its anchor says where it starts, and `Anchor.compose` and
`Anchor.composeSpan` move what was found in the region to the whole text.
-/

namespace LocaleStrings

/-- The start of a region in the text around it. -/
structure Anchor where
  /-- The byte offset at which the region starts. -/
  offset : Nat
  /-- The position at which the region starts. -/
  position : Position
deriving DecidableEq, Repr

namespace Anchor

/-- The anchor of a region that starts with the text. -/
def origin : Anchor := ⟨0, .first⟩

/-- The anchor at a byte offset of `text`, with counts narrowed by `f`. -/
def ofOffsetBy {m : Type → Type} [Monad m] (f : Narrowing m) (text : Text) (offset : Nat) :
    m Anchor := do
  let start ← f offset
  let position ← locateBy f text offset
  return ⟨start, position⟩

/-- The anchor at a byte offset of `text`. -/
def ofOffset (text : Text) (offset : Nat) : Anchor := (ofOffsetBy .truncating text offset).run

theorem ofOffset_eq (text : Text) (offset : Nat) :
    ofOffset text offset = ⟨Word.truncate offset, locate text offset⟩ := rfl

/-- Moves a position of the region into the whole text. Only the first line of the region shares
the anchor's line, and with it the anchor's column. -/
def compose (a : Anchor) (p : Position) : Except Overflow Position :=
  if p.line = 1 then do
    let column ← Word.add a.position.column p.column
    return ⟨a.position.line, column⟩
  else do
    let sum ← Word.add a.position.line p.line
    let line ← Word.sub sum 1
    return ⟨line, p.column⟩

/-- Moves a span of the region into the whole text. -/
def composeSpan (a : Anchor) (s : Span) : Except Overflow Span := s.shifted a.offset

/-- Moves both ends of a location of the region into the whole text. -/
def composeLocation (a : Anchor) (l : Location) : Except Overflow Location := do
  let start ← a.compose l.start
  let stop ← a.compose l.stop
  return ⟨start, stop⟩

end Anchor

end LocaleStrings
