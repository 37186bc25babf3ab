import LocaleStrings.Json.Value
import LocaleStrings.Source.Anchor
import LocaleStrings.Tree.Node

/-!
# From literals to paragraphs

A string literal becomes a paragraph with one string. Both cover the literal in the whole text.

* `Leaf`: a string of a region, with the bytes of the region that it is said to cover;
* `Leaf.liftBy`, `liftBy`: place a string by composing its place in the region with the anchor of
  the region, `Leaf.lift` and `lift` in counts of 32 bits;
* `Leaf.liftAbsolute`, `liftAbsolute`: place it by looking it up in the whole text.
-/

namespace LocaleStrings.Document

open Json (StringLiteral)

/-- A string of a region that is to be placed. Nothing ties its span to what was written. -/
structure Leaf where
  /-- The string as written, with quotes and escapes. -/
  raw : Text
  /-- The text it stands for. -/
  value : Text
  /-- The bytes of the region that it covers. -/
  span : Span
deriving DecidableEq, Repr

/-- A literal as a leaf. -/
def Leaf.ofLiteral (s : StringLiteral) : Leaf := ⟨s.raw, s.value, s.span⟩

/-- The paragraph of a leaf at a given place. -/
def fragment (l : Leaf) (span : Span) (loc : Location) : Node :=
  .paragraph l.raw span loc [.str l.raw span loc l.value]

section Narrowing

variable {m : Type → Type} [Monad m] (f : Narrowing m)

/-- The paragraph of a leaf of `region`, placed by way of the region. -/
def Leaf.liftBy (l : Leaf) (anchor : Anchor) (region : Text) : m (Except Overflow Node) := do
  let loc ← locateSpanBy f region l.span
  return do
    let loc ← anchor.composeLocation loc
    let span ← anchor.composeSpan l.span
    return fragment l span loc

/-- The paragraph of a literal of `region`, placed by way of the region. -/
def liftBy (s : StringLiteral) (anchor : Anchor) (region : Text) : m (Except Overflow Node) := do
  let span ← Span.ofOffsetsBy f s.start s.stop
  Leaf.liftBy f ⟨s.raw, s.value, span⟩ anchor region

end Narrowing

/-- The paragraph of a leaf of `region`, placed by way of the region, in counts of 32 bits. -/
def Leaf.lift (l : Leaf) (anchor : Anchor) (region : Text) : Except Overflow Node :=
  (l.liftBy .truncating anchor region).run

theorem Leaf.lift_eq (l : Leaf) (anchor : Anchor) (region : Text) :
    l.lift anchor region = do
      let loc ← anchor.composeLocation (locateSpan region l.span)
      let span ← anchor.composeSpan l.span
      return fragment l span loc := rfl

/-- The paragraph of a leaf of a region, placed by way of the whole text. -/
def Leaf.liftAbsolute (l : Leaf) (anchor : Anchor) (text : Text) : Except Overflow Node := do
  let span ← anchor.composeSpan l.span
  return fragment l span (locateSpan text span)

/-- The paragraph of a literal of `region`, placed by way of the region, in counts of 32 bits. -/
def lift (s : StringLiteral) (anchor : Anchor) (region : Text) : Except Overflow Node :=
  (liftBy .truncating s anchor region).run

theorem lift_eq (s : StringLiteral) (anchor : Anchor) (region : Text) :
    lift s anchor region = (Leaf.ofLiteral s).lift anchor region := rfl

/-- The paragraph of a literal of a region, placed by way of the whole text. -/
def liftAbsolute (s : StringLiteral) (anchor : Anchor) (text : Text) : Except Overflow Node :=
  (Leaf.ofLiteral s).liftAbsolute anchor text

end LocaleStrings.Document
