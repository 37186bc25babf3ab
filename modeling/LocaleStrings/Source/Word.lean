/-!
# Counts of 32 bits

Offsets, lines and columns are counts of 32 bits. Adding and subtracting them fails when the
result leaves that range; a longer count is cut down to its low 32 bits.

* `Overflow`: the two ways in which arithmetic fails;
* `Word.add`, `Word.sub`: checked arithmetic;
* `Word.truncate`: the low 32 bits;
* `Narrowing`: a way to put counts into 32 bits. What narrows counts has it as a parameter, and is
  run with `Narrowing.truncating`.
-/

namespace LocaleStrings

/-- An arithmetic step whose result is no 32-bit count. -/
inductive Overflow where
  /-- A sum of 2³² or more. -/
  | add
  /-- A difference below zero. -/
  | subtract
deriving DecidableEq, Repr

/-- How an overflow is reported. -/
def Overflow.message : Overflow → String
  | .add => "attempt to add with overflow"
  | .subtract => "attempt to subtract with overflow"

namespace Word

/-- The number of 32-bit counts, 2³². -/
def limit : Nat := 4294967296

/-- The low 32 bits of a count. -/
def truncate (n : Nat) : Nat := n % limit

/-- The sum of two counts, if it is one. -/
def add (a b : Nat) : Except Overflow Nat :=
  if a + b < limit then .ok (a + b) else .error .add

/-- The difference of two counts, if it is one. -/
def sub (a b : Nat) : Except Overflow Nat :=
  if b ≤ a then .ok (a - b) else .error .subtract

theorem truncate_of_lt {n : Nat} (h : n < limit) : truncate n = n := Nat.mod_eq_of_lt h

theorem add_of_lt {a b : Nat} (h : a + b < limit) : add a b = .ok (a + b) := if_pos h

theorem sub_of_le {a b : Nat} (h : b ≤ a) : sub a b = .ok (a - b) := if_pos h

end Word

/-- A way to put counts into 32 bits. In a monad that can fail it may refuse some of them. -/
abbrev Narrowing (m : Type → Type) := Nat → m Nat

/-- Keeps the low bits of every count. -/
def Narrowing.truncating : Narrowing Id := fun n => pure (Word.truncate n)

end LocaleStrings
