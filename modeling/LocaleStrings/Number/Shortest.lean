import LocaleStrings.Number.Double
import LocaleStrings.Text.Basic

/-!
# The shortest digits of a double

A double is written with the fewest digits that read back as it, and of those with the closest
ones.

* `Shortest.digits`: the digits and the power of ten of the first one;
* `Shortest.Format`, `Shortest.write`: when digits are written positionally, and how otherwise.
-/

namespace LocaleStrings.Shortest

/-- A quotient of natural numbers scaled by a power of ten: `num · 10 ^ -e / den`. -/
def scaleByTen (num den : Nat) : Int → Nat × Nat
  | .ofNat e => (num, den * Nat.pow 10 e)
  | .negSucc e => (num * Nat.pow 10 (e + 1), den)

/-- The greatest `e` from `low` on, in at most `steps` steps, with `10 ^ e ≤ num / den`. -/
def raise (num den : Nat) : (steps : Nat) → (low : Int) → Int
  | 0, low => low
  | steps + 1, low =>
    let (n, d) := scaleByTen num den (low + 1)
    if d ≤ n then raise num den steps (low + 1) else low

/-- The power of ten of the first digit of `num / den`. -/
def magnitude (num den : Nat) : Int :=
  let bits : Int := (num.log2 : Int) - (den.log2 : Int)
  raise num den 4 (Int.fdiv (bits * 30103) 100000 - 2)

/-- The interval of numbers that round to a double, in quarters of its last place. -/
structure Interval where
  low : Nat
  value : Nat
  high : Nat
  /-- The common denominator. -/
  den : Nat
  /-- Whether the ends round to the double too. -/
  closed : Bool

/-- The interval around a double. Below a power of two the neighbour is half as far. -/
def interval (x : Double) : Interval :=
  let down := if x.mant = Nat.pow 2 52 ∧ -1074 < x.exp then 1 else 2
  let (num, den) := match x.exp - 2 with
    | .ofNat e => (Nat.pow 2 e, 1)
    | .negSucc e => (1, Nat.pow 2 (e + 1))
  ⟨(4 * x.mant - down) * num, 4 * x.mant * num, (4 * x.mant + 2) * num, den, x.mant % 2 == 0⟩

/-- The value of at most `n` digits, in units of `10 ^ (top - n + 1)`, that is in the interval and
closest to its value. -/
def candidate? (i : Interval) (top : Int) (n : Nat) : Option Nat :=
  let unit := top - (n : Int) + 1
  let (value, den) := scaleByTen i.value i.den unit
  let (low, _) := scaleByTen i.low i.den unit
  let (high, _) := scaleByTen i.high i.den unit
  let inside (d : Nat) : Bool :=
    if i.closed then low ≤ d * den && d * den ≤ high else low < d * den && d * den < high
  let below := value / den
  let above := below + 1
  match inside below, inside above with
  | true, true =>
    let gap := value - below * den
    let rest := above * den - value
    if gap < rest || (gap == rest && below % 2 == 0) then some below else some above
  | true, false => some below
  | false, true => some above
  | false, false => none

/-- Leaves out zeros at the end of a run of digits. -/
def dropZeros (digits : Text) : Text := (digits.reverse.dropWhile (· == '0')).reverse

/-- The digits of a double other than zero, and the power of ten of the first one. -/
def digits (x : Double) : Text × Int :=
  let i := interval x
  let top := magnitude i.value i.den
  match (List.range 17).findSome? fun n => (candidate? i top (n + 1)).map (·, n + 1) with
  | some (d, n) =>
    let ds := Nat.toDigits 10 d
    (dropZeros ds, top + ((ds.length : Int) - (n : Int)))
  | none => (['0'], 0)

/-- How digits are written. -/
structure Format where
  /-- The least power of ten of the first digit for positional notation. -/
  least : Int
  /-- The greatest power of ten of the first digit for positional notation. -/
  greatest : Int
  /-- What stands before a positive exponent. -/
  plus : String

/-- A number in positional notation, with at least one digit behind the point. -/
def positional (ds : Text) (top : Int) : Text :=
  match top with
  | .ofNat e =>
    let whole := ds.take (e + 1)
    let fraction := ds.drop (e + 1)
    whole ++ List.replicate (e + 1 - whole.length) '0' ++ '.'
      :: (if fraction.isEmpty then ['0'] else fraction)
  | .negSucc e => '0' :: '.' :: (List.replicate e '0' ++ ds)

/-- A number with an exponent, and a point only if there is more than one digit. -/
def scientific (f : Format) (ds : Text) (top : Int) : Text :=
  let mantissa := match ds with
    | d :: e :: es => d :: '.' :: e :: es
    | ds => ds
  let exponent := match top with
    | .ofNat e => f.plus.toList ++ Nat.toDigits 10 e
    | .negSucc e => '-' :: Nat.toDigits 10 (e + 1)
  mantissa ++ 'e' :: exponent

/-- A double without sign, written with its shortest digits. -/
def write (f : Format) (x : Double) : Text :=
  if x.isZero then "0.0".toList
  else
    let (ds, top) := digits x
    if f.least ≤ top ∧ top ≤ f.greatest then positional ds top else scientific f ds top

end LocaleStrings.Shortest
