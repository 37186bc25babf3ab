import LocaleStrings.Source.Locate

/-!
# Why a text is no JSON

A strict reader stops at the first fault. It knows the reason and how many bytes it had taken, and
reports the line and the byte column there.

* `Reason`: what is wrong, with its wording in `Reason.message`;
* `Fault`: a reason with the bytes that were taken, `Fault.report` reports it;
* `Report.positionBy`, `Report.position`: the position of a text that a report points at.
-/

namespace LocaleStrings.Json.Strict

/-- The reasons for which a text is no JSON. -/
inductive Reason where
  | endInValue
  | endInString
  | endInArray
  | endInObject
  | expectedValue
  | expectedWord
  | expectedColon
  | expectedCommaOrBracket
  | expectedCommaOrBrace
  | keyNotString
  | trailingComma
  | trailingCharacters
  | invalidNumber
  | numberOutOfRange
  | invalidEscape
  | controlCharacter
  | loneSurrogate
  | endOfHexEscape
  | tooDeep
  /-- What should be a string that holds a JSON text is something else. -/
  | notText (found : String)
deriving DecidableEq, Repr

/-- The wording of each reason. -/
def Reason.message : Reason → String
  | .endInValue => "EOF while parsing a value"
  | .endInString => "EOF while parsing a string"
  | .endInArray => "EOF while parsing a list"
  | .endInObject => "EOF while parsing an object"
  | .expectedValue => "expected value"
  | .expectedWord => "expected ident"
  | .expectedColon => "expected `:`"
  | .expectedCommaOrBracket => "expected `,` or `]`"
  | .expectedCommaOrBrace => "expected `,` or `\x7d`"
  | .keyNotString => "key must be a string"
  | .trailingComma => "trailing comma"
  | .trailingCharacters => "trailing characters"
  | .invalidNumber => "invalid number"
  | .numberOutOfRange => "number out of range"
  | .invalidEscape => "invalid escape"
  | .controlCharacter => "control character (\\u0000-\\u001F) found while parsing a string"
  | .loneSurrogate => "lone leading surrogate in hex escape"
  | .endOfHexEscape => "unexpected end of hex escape"
  | .tooDeep => "recursion limit exceeded"
  | .notText found => s!"invalid type: {found}, expected raw value"

/-- A fault of a text. -/
structure Fault where
  /-- What is wrong. -/
  reason : Reason
  /-- How many bytes had been taken when it was noticed. -/
  taken : Nat
deriving DecidableEq, Repr

/-- The line, counted from one, in which byte `n` of the text stands. -/
def reportedLine (text : Text) (n : Nat) : Nat := (Text.within n text).count '\n' + 1

/-- The number of bytes of a text behind its last newline. -/
def sizeOfLastLine (text : Text) : Nat :=
  Text.size (text.reverse.takeWhile (· != '\n'))

/-- The number of bytes between the start of its line and byte `n`; an offset inside a character
counts the bytes of it that were taken. -/
def reportedColumn (text : Text) (n : Nat) : Nat :=
  let before := Text.within n text
  sizeOfLastLine before + (min n (Text.size text) - Text.size before)

/-- A fault as it is reported. -/
structure Report where
  /-- What is wrong. -/
  reason : Reason
  /-- The line, counted from one. -/
  line : Nat
  /-- The number of bytes of the line that had been taken. -/
  column : Nat
deriving DecidableEq, Repr

/-- The report of a fault of `text`. -/
def Fault.report (text : Text) (f : Fault) : Report :=
  ⟨f.reason, reportedLine text f.taken, reportedColumn text f.taken⟩

/-- The position of `text` that a report points at: the byte before the reported column, but no
further than the end of the reported line. -/
def Report.positionBy {m : Type → Type} [Monad m] (f : Narrowing m) (text : Text) (r : Report) :
    m Position := do
  let line ← f r.line
  let start := (offsetOf? text ⟨line, 0⟩).getD (Text.size text)
  let rest := match Text.splitAt? start text with
    | some (_, rest) => rest
    | none => []
  locateBy f text (min (start + (r.column - 1)) (start + Text.size (firstLine rest)))

/-- The position of `text` that a report points at, in counts of 32 bits. -/
def Report.position (text : Text) (r : Report) : Position := (r.positionBy .truncating text).run

theorem Report.position_eq (text : Text) (r : Report) :
    r.position text =
      let start := (offsetOf? text ⟨Word.truncate r.line, 0⟩).getD (Text.size text)
      let rest := match Text.splitAt? start text with
        | some (_, rest) => rest
        | none => []
      locate text (min (start + (r.column - 1)) (start + Text.size (firstLine rest))) := rfl

end LocaleStrings.Json.Strict
