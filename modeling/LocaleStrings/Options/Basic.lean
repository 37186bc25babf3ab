import LocaleStrings.Json.Lenient.Read
import LocaleStrings.Json.Write
import LocaleStrings.Locale.Filter
import LocaleStrings.Options.Decode

/-!
# Options

* `Options`: the locales to keep and the patterns of files that are plain locale texts;
* `Options.ofData`, `Options.read`: decoding and reading, with the errors in `Options.Error`;
* `Options.toData`, `Options.json`: writing;
* `Options.filter`: the locale filter that options ask for.
-/

namespace LocaleStrings

open Json (Data)

/-- What can be configured. -/
structure Options where
  /-- The locales to keep; every locale, if none are given. -/
  locales : Option (List Text) := none
  /-- The patterns of files that are read as plain locale texts. -/
  resources : List Text := []
deriving DecidableEq, Repr

namespace Options

/-- Why an option text cannot be used. -/
inductive Error where
  /-- The text cannot be read. -/
  | unreadable (text : Text) (fault : Json.Lenient.Fault)
  /-- The text is read, but holds something else than options. -/
  | malformed (error : DecodeError)

/-- The wording of an error. -/
def Error.message : Error → String
  | .unreadable text fault => s!"Invalid JSON: {fault.message text}"
  | .malformed error => s!"Invalid options: {error.message}"

/-- The locales of options: null stands for every locale. -/
def localesOfData : Data → Except DecodeError (Option (List Text))
  | .null => .ok none
  | d => (Decode.texts d).map some

/-- Reads options. A field that is missing has its default. -/
def ofData : Data → Except DecodeError Options
  | .object members => do
    let (locales, resources) ←
      Decode.fields "locales" "resources" localesOfData Decode.texts members
    return ⟨locales.getD none, resources.getD []⟩
  | .array [] => .ok {}
  | .array [d] => do
    let locales ← localesOfData d
    return ⟨locales, []⟩
  | .array (d :: e :: others) => do
    let locales ← localesOfData d
    let resources ← Decode.texts e
    if others.isEmpty then return ⟨locales, resources⟩
    else throw (Decode.tooLong (d :: e :: others))
  | d => .error (.wrongType d "struct PluginOptions")

/-- The options of an option text. A text without value stands for the default options. -/
def read (text : Text) : Except Error Options :=
  match Json.Lenient.read text with
  | .error fault => .error (.unreadable text fault)
  | .ok none => .ok {}
  | .ok (some value) =>
    match ofData (.ofValue value) with
    | .ok options => .ok options
    | .error e => .error (.malformed e)

/-- Options as data; locales that are not given are left out. -/
def toData (o : Options) : Data :=
  .record
    ((match o.locales with
      | some locales => [("locales", .array (locales.map .string))]
      | none => [])
    ++ [("resources", .array (o.resources.map .string))])

/-- The compact JSON text of options. -/
def json (o : Options) : Text := o.toData.compact

/-- The locale filter that options ask for. -/
def filter (o : Options) : Option LocaleFilter := o.locales.map LocaleFilter.ofList

end Options

end LocaleStrings
