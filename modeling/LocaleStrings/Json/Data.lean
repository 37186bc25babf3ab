import LocaleStrings.Number.Decimal
import LocaleStrings.Number.Shortest
import LocaleStrings.Text.Order
import LocaleStrings.Json.Value

/-!
# Plain JSON data

Values without places, as they are decoded into options and written as output.

* `Real`: a double with its sign, `Real.text` writes it;
* `Data`: a JSON value, `Data.ofValue` forgets the places of a value that was read.
-/

namespace LocaleStrings.Json

/-- A finite double with its sign. -/
structure Real where
  negative : Bool
  size : Double
deriving DecidableEq, Repr

/-- Doubles are positional from 10⁻⁵ up to 10¹⁶, and have an exponent with its sign otherwise. -/
def Real.format : Shortest.Format := ⟨-5, 15, "+"⟩

/-- A double with the fewest digits that read back as it. -/
def Real.text (x : Real) : Text :=
  let digits := Shortest.write Real.format x.size
  if x.negative then '-' :: digits else digits

/-- A JSON value. -/
inductive Data where
  | null
  | boolean (value : Bool)
  | integer (value : Int)
  | real (value : Real)
  | string (value : Text)
  | array (items : List Data)
  | object (members : List (Text × Data))
deriving Repr

namespace Data

/-- An object with the given members. -/
def record (members : List (String × Data)) : Data :=
  .object (members.map fun (key, value) => (key.toList, value))

/-! ## Members in order -/

/-- Puts a member into members in ascending order of their keys; it takes the place of one with
the same key. -/
def put {α : Type} (key : Text) (value : α) : List (Text × α) → List (Text × α)
  | [] => [(key, value)]
  | (k, v) :: ms =>
    if key == k then (key, value) :: ms
    else if Text.precedes key k then (key, value) :: (k, v) :: ms
    else (k, v) :: put key value ms

/-- The members in ascending order of their keys, the last one of each key. -/
def inOrder {α : Type} (members : List (Text × α)) : List (Text × α) :=
  members.foldl (fun ms m => put m.1 m.2 ms) []

mutual

/-- The data with the members of every object in ascending order of their keys. -/
def sorted : Data → Data
  | .array items => .array (sortedItems items)
  | .object members => .object (inOrder (sortedMembers members))
  | .null => .null
  | .boolean b => .boolean b
  | .integer n => .integer n
  | .real x => .real x
  | .string s => .string s

/-- `sorted` on every item. -/
def sortedItems : List Data → List Data
  | [] => []
  | d :: ds => d.sorted :: sortedItems ds

/-- `sorted` on every value. -/
def sortedMembers : List (Text × Data) → List (Text × Data)
  | [] => []
  | (k, d) :: ms => (k, d.sorted) :: sortedMembers ms

end

/-! ## Numbers -/

/-- A literal without its sign, and whether the sign is a minus. -/
def splitSign : Text → Bool × Text
  | '-' :: cs => (true, cs)
  | '+' :: cs => (false, cs)
  | cs => (false, cs)

/-- The digits of a hexadecimal literal. -/
def hexDigits? : Text → Option Text
  | '0' :: x :: cs => if x = 'x' ∨ x = 'X' then some cs else none
  | _ => none

/-- The value of hexadecimal digits. -/
def hexValue (digits : Text) : Nat :=
  digits.foldl (fun v d => v * 16 + (Ascii.hexValue? d).getD 0) 0

/-- The number that a literal stands for. Whole numbers of 64 bits stay whole, except a negative
zero; a literal that is out of range stands for its own text. -/
def ofNumber (lexeme : Text) : Data :=
  let (negative, digits) := splitSign lexeme
  match hexDigits? digits with
  | some hex =>
    if hexValue hex < Nat.pow 2 63 then
      .integer (if negative then -(hexValue hex : Int) else hexValue hex)
    else .string lexeme
  | none =>
    let decimal := Decimal.ofLexeme digits
    let real := match decimal.value? with
      | some x => .real ⟨negative, x⟩
      | none => .string lexeme
    match decimal.integer? digits with
    | none => real
    | some n =>
      if negative then
        if 0 < n ∧ n ≤ Nat.pow 2 63 then .integer (-(n : Int)) else real
      else if n < Nat.pow 2 64 then .integer n
      else real

mutual

/-- The data of a value that was read. Of members with the same key the last one counts. -/
def ofValue : Value → Data
  | .null => .null
  | .boolean b => .boolean b
  | .number lexeme => ofNumber lexeme
  | .string literal => .string literal.value
  | .array items => .array (ofItems items)
  | .object members => .object (inOrder (ofMembers members))

/-- The data of every item. -/
def ofItems : List Value → List Data
  | [] => []
  | v :: vs => ofValue v :: ofItems vs

/-- The data of every member. -/
def ofMembers : List (Text × Value) → List (Text × Data)
  | [] => []
  | (k, v) :: ms => (k, ofValue v) :: ofMembers ms

end

end Data

end LocaleStrings.Json
