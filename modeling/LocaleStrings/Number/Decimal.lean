import LocaleStrings.Number.Double
import LocaleStrings.Text.Ascii

/-!
# Decimal number literals

A literal is read as a significand of 64 bits times a power of ten. Digits that no longer fit are
dropped; a dropped digit of the integer part still counts for the exponent.

* `Decimal`: the digits of a literal without its sign, `Decimal.ofLexeme` reads them;
* `Decimal.scaled`: significand and power of ten without the written exponent;
* `Decimal.toDouble?`: the double that a literal stands for, if it is finite;
* `Decimal.overrun?`: where a literal that is too large is noticed.
-/

namespace LocaleStrings

/-- The parts of a number literal. -/
structure Decimal where
  /-- The digits before the point. -/
  integer : Text
  /-- The digits behind the point. -/
  fraction : Text
  /-- Whether the exponent is negative. -/
  expNegative : Bool
  /-- The digits of the exponent. -/
  expDigits : Text
deriving DecidableEq, Repr

namespace Decimal

/-- The digits of an exponent with its sign. -/
def exponentOf : Text → Bool × Text
  | '+' :: cs => (false, cs.takeWhile Ascii.isDigit)
  | '-' :: cs => (true, cs.takeWhile Ascii.isDigit)
  | cs => (false, cs.takeWhile Ascii.isDigit)

/-- The parts of a literal written without sign. -/
def ofLexeme (lexeme : Text) : Decimal :=
  let integer := lexeme.takeWhile Ascii.isDigit
  let behind := lexeme.dropWhile Ascii.isDigit
  let fraction := match behind with
    | '.' :: cs => cs.takeWhile Ascii.isDigit
    | _ => []
  let behind := match behind with
    | '.' :: cs => cs.dropWhile Ascii.isDigit
    | cs => cs
  let (negative, digits) := exponentOf (behind.drop 1)
  ⟨integer, fraction, negative, digits⟩

/-- The value of a run of digits behind `value`. -/
def digitsValue (value : Nat) (digits : Text) : Nat :=
  digits.foldl (fun v d => v * 10 + Ascii.digitValue d) value

/-- Appends digits to a significand while it stays below 2⁶⁴; gives it with the digits left. -/
def keep : Nat → Text → Nat × Text
  | value, [] => (value, [])
  | value, d :: ds =>
    let longer := value * 10 + Ascii.digitValue d
    if longer < Nat.pow 2 64 then keep longer ds else (value, d :: ds)

/-- The significand and the power of ten that the digits before the exponent stand for. -/
def scaled (d : Decimal) : Nat × Int :=
  let (value, dropped) := keep 0 d.integer
  let (value, unused) := keep value d.fraction
  (value, (dropped.length : Int) - ((d.fraction.length : Int) - (unused.length : Int)))

/-- The digits behind the one that takes the exponent past 2³¹ - 1, if one does. -/
def pastExponent? : Nat → Text → Option Text
  | _, [] => none
  | value, d :: ds =>
    let longer := value * 10 + Ascii.digitValue d
    if longer < Nat.pow 2 31 then pastExponent? longer ds else some ds

/-- Divides by a power of ten, in steps of 10³⁰⁸. -/
def shrink (x : Double) (e : Nat) : Double :=
  if e ≤ 308 then x.div (.ofNat (Nat.pow 10 e))
  else if x.isZero then x
  else shrink (x.div (.ofNat (Nat.pow 10 308))) (e - 308)
termination_by e

/-- The double for `significand · 10 ^ e`, if it is finite. -/
def toDouble? (significand : Nat) (e : Int) : Option Double :=
  match e with
  | .ofNat e =>
    if e ≤ 308 then
      let x := (Double.ofNat significand).mul (.ofNat (Nat.pow 10 e))
      if x.isInfinite then none else some x
    else if significand = 0 then some ⟨0, 0⟩
    else none
  | .negSucc e => some (shrink (.ofNat significand) (e + 1))

/-- The power of ten of the whole literal. -/
def exponent (d : Decimal) : Int :=
  let written : Int := digitsValue 0 d.expDigits
  d.scaled.2 + (if d.expNegative then -written else written)

/-- The double that the literal stands for, if it is finite. -/
def value? (d : Decimal) : Option Double :=
  match pastExponent? 0 d.expDigits with
  | some _ => if d.scaled.1 = 0 || d.expNegative then some ⟨0, 0⟩ else none
  | none => toDouble? d.scaled.1 d.exponent

/-- For a literal that is too large, the characters that are unread when this is noticed: an
exponent that is too long is given up at the digit that makes it so. -/
def overrun? (d : Decimal) : Option Text :=
  match d.value? with
  | some _ => none
  | none => some ((pastExponent? 0 d.expDigits).getD [])

/-- The value of a literal that is a whole number without point or exponent. -/
def integer? (d : Decimal) (lexeme : Text) : Option Nat :=
  if lexeme.all Ascii.isDigit then some (digitsValue 0 d.integer) else none

end Decimal

end LocaleStrings
