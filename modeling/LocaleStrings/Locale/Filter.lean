import LocaleStrings.Text.Order

/-!
# Locale filters

A filter is a set of locale keys: the order and repetition of the keys it is made from do not
matter.
-/

namespace LocaleStrings

/-- A set of locale keys, in ascending order. -/
structure LocaleFilter where
  keys : List Text
deriving DecidableEq, Repr

namespace LocaleFilter

/-- The filter that keeps exactly the given keys. -/
def ofList (keys : List Text) : LocaleFilter := ⟨Text.sortedSet keys⟩

/-- Whether the filter keeps a key. -/
def contains (f : LocaleFilter) (key : Text) : Bool := f.keys.contains key

/-- The number of keys that the filter keeps. -/
def size (f : LocaleFilter) : Nat := f.keys.length

/-- Whether the filter keeps nothing. -/
def isEmpty (f : LocaleFilter) : Bool := f.keys.isEmpty

/-- Whether a key is kept when there may be no filter: then every key is. -/
def keeps (filter : Option LocaleFilter) (key : Text) : Bool :=
  match filter with
  | none => true
  | some f => f.contains key

end LocaleFilter

end LocaleStrings
