/-!
# Doubles

Finite doubles without sign, in exact arithmetic: `mant · 2 ^ exp`.

* `Double.ofRatio`: the double closest to a quotient, ties to the even significand;
* `Double.mul`, `Double.div`: rounded product and quotient;
* `Double.isInfinite`: whether rounding left the range of finite doubles.
-/

namespace LocaleStrings

/-- A number `mant · 2 ^ exp`. -/
structure Double where
  mant : Nat
  exp : Int
deriving DecidableEq, Repr

namespace Double

/-- The quotient rounded to the closest number, ties to the even one. -/
def roundDiv (num den : Nat) : Nat :=
  let q := num / den
  let r := num % den
  if den < 2 * r || (2 * r == den && q % 2 == 1) then q + 1 else q

/-- The two sides of `num / den / 2 ^ exp` as one quotient. -/
def scaleDown (num den : Nat) : Int → Nat × Nat
  | .ofNat e => (num, den * Nat.pow 2 e)
  | .negSucc e => (num * Nat.pow 2 (e + 1), den)

/-- The exponent with which `num / den` has a significand of 53 bits, or the least one. -/
def exponentFor (num den : Nat) : Int :=
  let e : Int := (num.log2 : Int) - (den.log2 : Int) - 53
  let (n, d) := scaleDown num den e
  let e := if Nat.pow 2 53 ≤ n / d then e + 1 else e
  max e (-1074)

/-- A significand of at most 53 bits: rounding up can carry into one bit more. -/
def normalized (mant : Nat) (e : Int) : Double :=
  if mant = Nat.pow 2 53 then ⟨Nat.pow 2 52, e + 1⟩ else ⟨mant, e⟩

/-- The double closest to `num / den`. -/
def ofRatio (num den : Nat) : Double :=
  if num = 0 then ⟨0, 0⟩
  else
    let e := exponentFor num den
    let (n, d) := scaleDown num den e
    normalized (roundDiv n d) e

/-- The double closest to a natural number. -/
def ofNat (n : Nat) : Double := ofRatio n 1

/-- The number as a quotient. -/
def toRatio (x : Double) : Nat × Nat :=
  match x.exp with
  | .ofNat e => (x.mant * Nat.pow 2 e, 1)
  | .negSucc e => (x.mant, Nat.pow 2 (e + 1))

/-- Whether the number is zero. -/
def isZero (x : Double) : Bool := x.mant == 0

/-- Whether the number is too large for a finite double. -/
def isInfinite (x : Double) : Bool :=
  let (n, d) := x.toRatio
  d * Nat.pow 2 1024 ≤ n

/-- The rounded product. -/
def mul (x y : Double) : Double :=
  let (a, b) := x.toRatio
  let (c, d) := y.toRatio
  ofRatio (a * c) (b * d)

/-- The rounded quotient. -/
def div (x y : Double) : Double :=
  let (a, b) := x.toRatio
  let (c, d) := y.toRatio
  ofRatio (a * d) (b * c)

end Double

end LocaleStrings
