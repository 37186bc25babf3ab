import LocaleStrings.Source.Position

/-!
# JSON values with their places

* `StringLiteral`: a string as it was written, decoded, and where it stands;
* `Value`: a JSON value whose strings are literals and whose numbers are kept as written;
* `Value.literals`: the strings in value position, in the order of the text.
-/

namespace LocaleStrings.Json

/-- A string of a JSON text. -/
structure StringLiteral where
  /-- The literal as written, with quotes and escapes. -/
  raw : Text
  /-- The text it stands for. -/
  value : Text
  /-- The byte offset at which it starts. -/
  start : Nat
deriving DecidableEq, Repr

/-- The byte offset behind the literal. -/
def StringLiteral.stop (s : StringLiteral) : Nat := s.start + Text.size s.raw

/-- The bytes that the literal takes. -/
def StringLiteral.span (s : StringLiteral) : Span := .ofOffsets s.start s.stop

/-- A JSON value. -/
inductive Value where
  | null
  | boolean (value : Bool)
  /-- A number as it was written. -/
  | number (lexeme : Text)
  | string (literal : StringLiteral)
  | array (items : List Value)
  /-- Members with decoded keys, in the order of the text and with repetitions. -/
  | object (members : List (Text × Value))
deriving Repr

/-- The name of the kind of a value. -/
def Value.kindName : Value → String
  | .null => "null"
  | .boolean _ => "boolean"
  | .number _ => "number"
  | .string _ => "string"
  | .array _ => "array"
  | .object _ => "object"

mutual

/-- The strings in value position, in the order of the text. -/
def Value.literals : Value → List StringLiteral
  | .null | .boolean _ | .number _ => []
  | .string literal => [literal]
  | .array items => literalsOfItems items
  | .object members => literalsOfMembers members

/-- The strings in the items of an array. -/
def literalsOfItems : List Value → List StringLiteral
  | [] => []
  | v :: vs => v.literals ++ literalsOfItems vs

/-- The strings in the values of members. -/
def literalsOfMembers : List (Text × Value) → List StringLiteral
  | [] => []
  | (_, v) :: ms => v.literals ++ literalsOfMembers ms

end

end LocaleStrings.Json
