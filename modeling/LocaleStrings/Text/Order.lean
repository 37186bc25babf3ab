import LocaleStrings.Text.Basic

/-!
# The order of texts

Texts are ordered character by character, by code point.

* `Text.precedes`: the strict order;
* `Text.insert`, `Text.sortedSet`: texts in ascending order without repetitions.
-/

namespace LocaleStrings.Text

/-- Whether `s` comes before `t`. -/
def precedes : Text → Text → Bool
  | _, [] => false
  | [], _ :: _ => true
  | a :: as, b :: bs => a < b || (a == b && precedes as bs)

/-- Puts a text into texts in ascending order, unless it is one of them. -/
def insert (t : Text) : List Text → List Text
  | [] => [t]
  | s :: ss =>
    if t == s then s :: ss
    else if precedes t s then t :: s :: ss
    else s :: insert t ss

/-- The texts in ascending order without repetitions. -/
def sortedSet (ts : List Text) : List Text := ts.foldr insert []

end LocaleStrings.Text
