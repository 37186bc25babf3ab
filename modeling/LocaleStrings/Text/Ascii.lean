import LocaleStrings.Text.Basic

/-!
# ASCII classes

Markup and file names are compared in ASCII only: letters of other alphabets have no case and
count as no letters here.

* `Ascii.isBlank`: space, tab, newline, carriage return and form feed;
* `Ascii.isLetter`, `Ascii.isDigit`, `Ascii.hexValue?`;
* `Ascii.sameIgnoringCase`: equality of texts up to the case of ASCII letters.
-/

namespace LocaleStrings.Ascii

/-- The blanks of markup: space, tab, newline, carriage return and form feed. -/
def isBlank (c : Char) : Bool :=
  c == ' ' || c == '\t' || c == '\n' || c == '\r' || c == '\x0c'

/-- An ASCII letter of either case. -/
def isLetter (c : Char) : Bool :=
  ('a' ≤ c && c ≤ 'z') || ('A' ≤ c && c ≤ 'Z')

/-- An ASCII decimal digit. -/
def isDigit (c : Char) : Bool := '0' ≤ c && c ≤ '9'

/-- The value of a decimal digit. -/
def digitValue (c : Char) : Nat := c.toNat - '0'.toNat

/-- The value of a hexadecimal digit of either case. -/
def hexValue? (c : Char) : Option Nat :=
  if isDigit c then some (digitValue c)
  else if 'a' ≤ c && c ≤ 'f' then some (c.toNat - 'a'.toNat + 10)
  else if 'A' ≤ c && c ≤ 'F' then some (c.toNat - 'A'.toNat + 10)
  else none

/-- The lower-case form of an ASCII letter; every other character is itself. -/
def lower (c : Char) : Char :=
  if 'A' ≤ c && c ≤ 'Z' then Char.ofNat (c.toNat + 32) else c

/-- Equality of texts up to the case of ASCII letters. -/
def sameIgnoringCase (s t : Text) : Bool := s.map lower == t.map lower

end LocaleStrings.Ascii
