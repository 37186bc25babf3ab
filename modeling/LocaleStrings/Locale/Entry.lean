import LocaleStrings.Json.Lenient.Read
import LocaleStrings.Json.Strict.Check
import LocaleStrings.Locale.Filter
import LocaleStrings.Locale.ParseError

/-!
# The entries of a locale text

A locale text is a JSON object whose members are locales. It must pass the strict check; the
lenient reader then gives its values with their places.

* `Reading`: the parts that reading a locale text is put together from;
* `Locale.valueWith`, `Locale.value?`: the value of the text;
* `Locale.entriesWith`, `Locale.entries`: the members of the object;
* `Locale.pickWith`, `Locale.pick`: the members that a filter keeps, in the order of the text;
* `Locale.literals`: the strings in them.
-/

namespace LocaleStrings

/-- How locale texts are read. -/
structure Reading (m : Type → Type) where
  /-- How offsets, lines and columns become counts of 32 bits. -/
  narrow : Narrowing m
  /-- The strict check. -/
  check : Text → Except Json.Strict.Report Unit
  /-- The lenient reader. -/
  read : Text → Except Json.Lenient.Fault (Option Json.Value)

/-- The check and the reader of this library, with counts cut down to 32 bits. -/
def Reading.usual : Reading Id := ⟨.truncating, Json.Strict.check, Json.Lenient.read⟩

namespace Locale

/-- A top-level member of a locale text. -/
structure Entry where
  /-- The decoded key, usually a locale code. -/
  key : Text
  /-- The value, with its places in the text. -/
  value : Json.Value
deriving Repr

/-- The members of a value, which must be an object. -/
def entriesOf : Option Json.Value → Except ParseError (List Entry)
  | some (.object members) => .ok (members.map fun (key, value) => ⟨key, value⟩)
  | some (.array _) => .error (.notAnObject "an array")
  | some (.string _) => .error (.notAnObject "a string")
  | some _ => .error (.notAnObject "a scalar")
  | none => .error (.notAnObject "nothing")

section Reading

variable {m : Type → Type} [Monad m] (r : Reading m)

/-- The value of a JSON text, with its places. The reader is asked only if the text passes the
check. -/
def valueWith (text : Text) : m (Except ParseError (Option Json.Value)) :=
  match r.check text with
  | .error report => do
    let position ← report.positionBy r.narrow text
    return .error (.invalidJson report.reason.message position)
  | .ok () =>
    match r.read text with
    | .error fault => do
      let position ← locateBy r.narrow text fault.offset
      return .error (.invalidJson fault.problem.message position)
    | .ok value => return .ok value

/-- The members of a locale text. -/
def entriesWith (text : Text) : m (Except ParseError (List Entry)) := do
  let value ← valueWith r text
  return value.bind entriesOf

/-- The members of a locale text that a filter keeps. -/
def pickWith (text : Text) (filter : Option LocaleFilter) : m (Except ParseError (List Entry)) := do
  let entries ← entriesWith r text
  return entries.map (·.filter fun e => LocaleFilter.keeps filter e.key)

end Reading

/-- The value of a JSON text, with its places. -/
def value? (text : Text) : Except ParseError (Option Json.Value) := (valueWith .usual text).run

/-- The members of a locale text. -/
def entries (text : Text) : Except ParseError (List Entry) := (entriesWith .usual text).run

/-- The members of a locale text that a filter keeps. -/
def pick (text : Text) (filter : Option LocaleFilter) : Except ParseError (List Entry) :=
  (pickWith .usual text filter).run

theorem value?_eq (text : Text) :
    value? text = match Json.Strict.check text with
      | .error report => .error (.invalidJson report.reason.message (report.position text))
      | .ok () =>
        match Json.Lenient.read text with
        | .error fault => .error (.invalidJson fault.problem.message (locate text fault.offset))
        | .ok value => .ok value := by
  unfold value? valueWith Reading.usual
  dsimp only
  cases Json.Strict.check text with
  | error => rfl
  | ok => cases Json.Lenient.read text <;> rfl

theorem entries_eq (text : Text) : entries text = (value? text).bind entriesOf := rfl

theorem pick_eq (text : Text) (filter : Option LocaleFilter) :
    pick text filter = (entries text).map (·.filter fun e => LocaleFilter.keeps filter e.key) := rfl

/-- The strings in the given entries. -/
def literals (kept : List Entry) : List Json.StringLiteral := kept.flatMap (·.value.literals)

end Locale

end LocaleStrings
