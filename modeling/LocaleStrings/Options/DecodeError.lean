import LocaleStrings.Json.Describe

/-!
# Errors of typed decoding

`DecodeError` says why data does not have the type that is asked for, with its wording in
`DecodeError.message`.
-/

namespace LocaleStrings

/-- Why data does not have the type that is asked for. -/
inductive DecodeError where
  | wrongType (found : Json.Data) (expected : String)
  | wrongValue (found : Json.Data) (expected : String)
  | wrongLength (length : Nat) (expected : String)
  | missingField (name : String)
  | unknownVariant (name : Text) (variants : List String)
deriving Repr

/-- The wording of an error. -/
def DecodeError.message : DecodeError → String
  | .wrongType found expected => s!"invalid type: {found.describe}, expected {expected}"
  | .wrongValue found expected => s!"invalid value: {found.describe}, expected {expected}"
  | .wrongLength length expected => s!"invalid length {length}, expected {expected}"
  | .missingField name => s!"missing field `{name}`"
  | .unknownVariant name variants =>
    let names := ", ".intercalate (variants.map fun v => "`" ++ v ++ "`")
    s!"unknown variant `{String.ofList name}`, expected one of {names}"

end LocaleStrings
