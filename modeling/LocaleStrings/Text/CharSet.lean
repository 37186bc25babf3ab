/-!
# Sets of characters

A set of characters is given by the code points at which membership changes, in ascending order:
before the first one no character is in the set.
-/

namespace LocaleStrings

/-- The code points at which membership changes. -/
abbrev CharSet := List Nat

/-- Whether a character is in the set: an odd number of changes come before it. -/
def CharSet.contains (set : CharSet) (c : Char) : Bool :=
  (set.takeWhile (· ≤ c.toNat)).length % 2 == 1

end LocaleStrings
