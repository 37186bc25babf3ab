import LocaleStrings.Source.Word
import LocaleStrings.Text.Basic

/-!
# Positions, spans and locations

* `Position`: a line, counted from one, and a column, counted from zero in characters;
* `Span`: a range of byte offsets, with `Span.len`, `Span.encloses`, `Span.shifted` and
  `Span.slice`;
* `Location`: the positions of the two ends of a span.

All three are ordered field by field.
-/

namespace LocaleStrings

/-! ## Positions -/

/-- A place between two characters of a text. -/
structure Position where
  /-- The line, counted from one. -/
  line : Nat
  /-- The column, counted in characters from zero. -/
  column : Nat
deriving DecidableEq, Repr

namespace Position

/-- The first position of every text. -/
def first : Position := ⟨1, 0⟩

/-- Lines come first, columns second. -/
protected def le (a b : Position) : Prop :=
  a.line < b.line ∨ a.line = b.line ∧ a.column ≤ b.column

instance : LE Position := ⟨Position.le⟩

instance (a b : Position) : Decidable (a ≤ b) :=
  inferInstanceAs (Decidable (a.line < b.line ∨ a.line = b.line ∧ a.column ≤ b.column))

/-- The position as it is spelled out in messages. -/
def describe (p : Position) : String :=
  s!"Position \x7b line: {p.line}, column: {p.column} \x7d"

end Position

/-! ## Spans -/

/-- A range of byte offsets, without its upper end. -/
structure Span where
  /-- The offset of the first byte. -/
  start : Nat
  /-- The offset behind the last byte. -/
  stop : Nat
deriving DecidableEq, Repr

namespace Span

/-- Starts come first, ends second. -/
protected def le (a b : Span) : Prop := a.start < b.start ∨ a.start = b.start ∧ a.stop ≤ b.stop

instance : LE Span := ⟨Span.le⟩

instance (a b : Span) : Decidable (a ≤ b) :=
  inferInstanceAs (Decidable (a.start < b.start ∨ a.start = b.start ∧ a.stop ≤ b.stop))

/-- The span between two offsets of any size, each narrowed by `f`. -/
def ofOffsetsBy {m : Type → Type} [Monad m] (f : Narrowing m) (start stop : Nat) : m Span := do
  let start ← f start
  let stop ← f stop
  return ⟨start, stop⟩

/-- The span between two offsets of any size, each cut down to 32 bits. -/
def ofOffsets (start stop : Nat) : Span := (ofOffsetsBy .truncating start stop).run

theorem ofOffsets_eq (start stop : Nat) :
    ofOffsets start stop = ⟨Word.truncate start, Word.truncate stop⟩ := rfl

/-- The number of bytes; an inverted span has none. -/
def len (s : Span) : Except Overflow Nat := Word.sub s.stop s.start

/-- Whether both ends are the same offset. -/
def isEmpty (s : Span) : Bool := s.start == s.stop

/-- Whether `inner` starts no earlier and ends no later. -/
def encloses (outer inner : Span) : Bool :=
  decide (outer.start ≤ inner.start) && decide (inner.stop ≤ outer.stop)

/-- The span moved forward. -/
def shifted (s : Span) (offset : Nat) : Except Overflow Span := do
  let start ← Word.add s.start offset
  let stop ← Word.add s.stop offset
  return ⟨start, stop⟩

theorem shifted_of_lt {s : Span} {n : Nat} (hstart : s.start + n < Word.limit)
    (hstop : s.stop + n < Word.limit) : s.shifted n = .ok ⟨s.start + n, s.stop + n⟩ := by
  rw [shifted, Word.add_of_lt hstart, Word.add_of_lt hstop]
  rfl

/-- The part of `text` that the span covers, if both ends are character boundaries in order. -/
def slice (s : Span) (text : Text) : Option Text :=
  if s.start ≤ s.stop then do
    let (_, rest) ← Text.splitAt? s.start text
    let (covered, _) ← Text.splitAt? (s.stop - s.start) rest
    return covered
  else none

/-- The span as it is spelled out in messages. -/
def describe (s : Span) : String := s!"Span \x7b start: {s.start}, end: {s.stop} \x7d"

end Span

/-! ## Locations -/

/-- The positions of the two ends of a span. -/
structure Location where
  /-- Where the span starts. -/
  start : Position
  /-- Where the span ends. -/
  stop : Position
deriving DecidableEq, Repr

namespace Location

/-- Starts come first, ends second. -/
protected def le (a b : Location) : Prop :=
  a.start ≠ b.start ∧ a.start ≤ b.start ∨ a.start = b.start ∧ a.stop ≤ b.stop

instance : LE Location := ⟨Location.le⟩

instance (a b : Location) : Decidable (a ≤ b) :=
  inferInstanceAs
    (Decidable (a.start ≠ b.start ∧ a.start ≤ b.start ∨ a.start = b.start ∧ a.stop ≤ b.stop))

/-- The location of an empty span. -/
def point (p : Position) : Location := ⟨p, p⟩

/-- The location as it is spelled out in messages. -/
def describe (l : Location) : String :=
  "Location \x7b start: " ++ l.start.describe ++ ", end: " ++ l.stop.describe ++ " \x7d"

end Location

/-- Values in ascending order; equal ones keep their places. -/
def ascending {α : Type} [LE α] [DecidableLE α] (values : List α) : List α :=
  values.mergeSort fun a b => decide (a ≤ b)

end LocaleStrings
