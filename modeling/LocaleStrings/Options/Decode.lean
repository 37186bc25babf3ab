import LocaleStrings.Options.DecodeError
import LocaleStrings.Tree.Node

/-!
# Typed decoding

Records are read from objects, whose unknown members are ignored, or from lists in the order of
their fields. Members are decoded in the order of the object, and the first error counts.

* `Decode.word`, `Decode.texts`: counts of 32 bits and lists of texts;
* `Decode.pair`: a record with two fields that must be there;
* `Position.ofData`, `Span.ofData`, `Location.ofData`, `NodeType.ofData`.
-/

namespace LocaleStrings

open Json (Data)

namespace Decode

/-- A count of 32 bits. -/
def word : Data → Except DecodeError Nat
  | .integer n =>
    if 0 ≤ n ∧ n < Word.limit then .ok n.toNat else .error (.wrongValue (.integer n) "u32")
  | d => .error (.wrongType d "u32")

/-- A text. -/
def text : Data → Except DecodeError Text
  | .string s => .ok s
  | d => .error (.wrongType d "a string")

/-- A list of texts. -/
def texts : Data → Except DecodeError (List Text)
  | .array items => items.mapM text
  | d => .error (.wrongType d "a sequence")

variable {α β : Type}

/-- The values of two fields in the members of an object, as far as they are there. -/
def fields (first second : String) (f : Data → Except DecodeError α)
    (g : Data → Except DecodeError β) :
    List (Text × Data) → Except DecodeError (Option α × Option β)
  | [] => .ok (none, none)
  | (key, d) :: others =>
    if key = first.toList then do
      let a ← f d
      let (_, b) ← fields first second f g others
      return (some a, b)
    else if key = second.toList then do
      let b ← g d
      let (a, _) ← fields first second f g others
      return (a, some b)
    else fields first second f g others

/-- The error of a list with more items than fields. -/
def tooLong (items : List Data) : DecodeError :=
  .wrongLength items.length "fewer elements in array"

/-- A record with two fields. -/
def pair (record first second : String) (f : Data → Except DecodeError α)
    (g : Data → Except DecodeError β) : Data → Except DecodeError (α × β)
  | .object members => do
    match ← fields first second f g members with
    | (some a, some b) => return (a, b)
    | (none, _) => throw (.missingField first)
    | (some _, none) => throw (.missingField second)
  | .array [] => .error (.wrongLength 0 s!"struct {record} with 2 elements")
  | .array [d] => do
    let _ ← f d
    throw (.wrongLength 1 s!"struct {record} with 2 elements")
  | .array (d :: e :: others) => do
    let a ← f d
    let b ← g e
    if others.isEmpty then return (a, b) else throw (tooLong (d :: e :: others))
  | d => .error (.wrongType d s!"struct {record}")

end Decode

/-- Reads a position. -/
def Position.ofData (d : Data) : Except DecodeError Position := do
  let (line, column) ← Decode.pair "Position" "line" "column" Decode.word Decode.word d
  return ⟨line, column⟩

/-- Reads a span. -/
def Span.ofData (d : Data) : Except DecodeError Span := do
  let (start, stop) ← Decode.pair "Span" "start" "end" Decode.word Decode.word d
  return ⟨start, stop⟩

/-- Reads a location. -/
def Location.ofData (d : Data) : Except DecodeError Location := do
  let (start, stop) ← Decode.pair "Location" "start" "end" Position.ofData Position.ofData d
  return ⟨start, stop⟩

/-- The type of nodes of a name. -/
def NodeType.ofText (name : Text) : Except DecodeError NodeType :=
  match NodeType.ofName? (String.ofList name) with
  | some type => .ok type
  | none => .error (.unknownVariant name ["Document", "Paragraph", "Str"])

/-- Reads a type of nodes: its name, or an object whose only key is the name. -/
def NodeType.ofData : Data → Except DecodeError NodeType
  | .string name => NodeType.ofText name
  | .object [(name, content)] => do
    let type ← NodeType.ofText name
    match content with
    | .null => return type
    | d => throw (.wrongType d "unit")
  | .object members => .error (.wrongValue (.object members) "map with a single key")
  | d => .error (.wrongType d "string or map")

end LocaleStrings
