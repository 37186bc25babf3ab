import LocaleStrings.Source.Locate

/-!
# Why an option text cannot be read

* `Problem`: what is wrong, with its wording in `Problem.message`;
* `Fault`: a problem with the byte offset it is reported at, written out by `Fault.message`.
-/

namespace LocaleStrings.Json.Lenient

/-- What is wrong with a text. -/
inductive Problem where
  | unexpectedToken
  | unexpectedCloseBracket
  | unexpectedCloseBrace
  | unexpectedComma
  | unexpectedColon
  | unexpectedWord
  | unexpectedInObject
  | expectedColon
  | expectedMemberValue
  | expectedDigit
  | expectedDigitAfterSign
  | expectedExponent
  | expectedHexDigits
  | invalidEscape
  | doubleQuoteEscape
  | singleQuoteEscape
  /-- A numeric escape of half a surrogate pair, with its digits and what is wrong with it. -/
  | invalidSurrogate (digits : Text) (flaw : String)
  | unterminatedString
  | unterminatedComment
  | unterminatedArray
  | unterminatedObject
  | severalValues
deriving DecidableEq, Repr

/-- The wording of each problem. -/
def Problem.message : Problem → String
  | .unexpectedToken => "Unexpected token"
  | .unexpectedCloseBracket => "Unexpected close bracket"
  | .unexpectedCloseBrace => "Unexpected close brace"
  | .unexpectedComma => "Unexpected comma"
  | .unexpectedColon => "Unexpected colon"
  | .unexpectedWord => "Unexpected word"
  | .unexpectedInObject => "Unexpected token in object"
  | .expectedColon => "Expected colon after the string or word in object property"
  | .expectedMemberValue => "Expected value after colon in object property"
  | .expectedDigit => "Expected digit"
  | .expectedDigitAfterSign => "Expected digit following negative sign"
  | .expectedExponent => "Expected plus, minus, or digit in number literal"
  | .expectedHexDigits => "Expected four hex digits"
  | .invalidEscape => "Invalid escape"
  | .doubleQuoteEscape => "Invalid escape in single quote string"
  | .singleQuoteEscape => "Invalid escape in double quote string"
  | .invalidSurrogate digits flaw =>
    "Invalid unicode escape sequence. '" ++ String.ofList digits ++ " (" ++ flaw
      ++ ")' is not a valid UTF8 character"
  | .unterminatedString => "Unterminated string literal"
  | .unterminatedComment => "Unterminated comment block"
  | .unterminatedArray => "Unterminated array"
  | .unterminatedObject => "Unterminated object"
  | .severalValues => "Text cannot contain more than one JSON value"

/-- A fault of a text. -/
structure Fault where
  /-- What is wrong. -/
  problem : Problem
  /-- The byte offset at which it is reported. -/
  offset : Nat
deriving DecidableEq, Repr

/-- The fault of `text` written out, with line and column counted from one. -/
def Fault.message (text : Text) (f : Fault) : String :=
  let p := Position.behind (Text.within f.offset text)
  s!"{f.problem.message} on line {p.line} column {p.column + 1}"

end LocaleStrings.Json.Lenient
