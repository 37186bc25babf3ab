import LocaleStrings.Source.Anchor

/-!
# Errors of locale texts

* `ParseError`: why a locale text cannot be used, with its wording in `ParseError.message`;
* `ParseError.anchored`: the error of a region as an error of the whole text.
-/

namespace LocaleStrings

/-- Why a locale text cannot be used. -/
inductive ParseError where
  /-- The text is no JSON. -/
  | invalidJson (detail : String) (position : Position)
  /-- The text is JSON, but of another kind than an object. -/
  | notAnObject (found : String)
  /-- The reader itself failed. -/
  | internal (text : String)
deriving DecidableEq, Repr

namespace ParseError

/-- The wording of an error. -/
def message : ParseError → String
  | .invalidJson detail p => s!"Invalid JSON at line {p.line}, column {p.column}: {detail}"
  | .notAnObject found => s!"JSON must be an object, found {found}"
  | .internal text => s!"Internal parser error: {text}"

/-- The error of a region, moved into the text around the region. -/
def anchored (a : Anchor) : ParseError → Except Overflow ParseError
  | .invalidJson detail p => (a.compose p).map (.invalidJson detail)
  | .notAnObject found => .ok (.notAnObject found)
  | .internal text => .ok (.internal text)

end ParseError

end LocaleStrings
