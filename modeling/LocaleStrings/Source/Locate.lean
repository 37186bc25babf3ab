import LocaleStrings.Source.Position

/-!
# From offsets to positions and back

Only a newline ends a line, and a column counts characters.

* `Position.next`, `Position.behind`: the position behind a character, and at the end of a text;
* `locateBy`, `locate`: the position of a byte offset, taken back to a character boundary of the
  text;
* `locateSpanBy`, `locateSpan`: the location of a span;
* `offsetOf?`: the byte offset of a position, whose column is cut at the end of its line.
-/

namespace LocaleStrings

/-- The position behind one more character. -/
def Position.next (p : Position) (c : Char) : Position :=
  if c = '\n' then ⟨p.line + 1, 0⟩ else ⟨p.line, p.column + 1⟩

/-- The position at the end of a text. -/
def Position.behind (before : Text) : Position := before.foldl Position.next .first

section Narrowing

variable {m : Type → Type} [Monad m] (f : Narrowing m)

/-- The position with both counts narrowed by `f`. -/
def Position.narrowBy (p : Position) : m Position := do
  let line ← f p.line
  let column ← f p.column
  return ⟨line, column⟩

/-- The position of a byte offset. An offset past the end, or inside a character, counts as the
closest character boundary before it. -/
def locateBy (text : Text) (offset : Nat) : m Position :=
  (Position.behind (Text.within offset text)).narrowBy f

/-- The positions of both ends of a span. -/
def locateSpanBy (text : Text) (span : Span) : m Location := do
  let start ← locateBy f text span.start
  let stop ← locateBy f text span.stop
  return ⟨start, stop⟩

end Narrowing

/-- The position with both counts cut down to 32 bits. -/
def Position.truncate (p : Position) : Position := (p.narrowBy .truncating).run

/-- The position of a byte offset, in counts of 32 bits. -/
def locate (text : Text) (offset : Nat) : Position := (locateBy .truncating text offset).run

/-- The positions of both ends of a span, in counts of 32 bits. -/
def locateSpan (text : Text) (span : Span) : Location := (locateSpanBy .truncating text span).run

theorem Position.truncate_eq (p : Position) :
    p.truncate = ⟨Word.truncate p.line, Word.truncate p.column⟩ := rfl

theorem locate_eq (text : Text) (offset : Nat) :
    locate text offset = (Position.behind (Text.within offset text)).truncate := rfl

theorem locateSpan_eq (text : Text) (span : Span) :
    locateSpan text span = ⟨locate text span.start, locate text span.stop⟩ := rfl

/-- What follows the first `n` newlines. -/
def afterLines : Nat → Text → Option Text
  | 0, cs => some cs
  | _ + 1, [] => none
  | n + 1, c :: cs => if c = '\n' then afterLines n cs else afterLines (n + 1) cs

/-- The characters up to the first newline. -/
def firstLine (text : Text) : Text := text.takeWhile (· != '\n')

/-- The byte offset of a position, if the text has its line. A column past the end of the line
counts as the end of the line. -/
def offsetOf? (text : Text) (p : Position) : Option Nat :=
  match p.line with
  | 0 => none
  | n + 1 => (afterLines n text).map fun rest =>
      (Text.size text - Text.size rest) + Text.size ((firstLine rest).take p.column)

end LocaleStrings
