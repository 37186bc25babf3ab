import LocaleStrings.Json.Data
import LocaleStrings.Text.Quoted

/-!
# Data in messages

`Data.describe` names data in a message: scalars with their value, arrays and objects by their kind
alone.
-/

namespace LocaleStrings.Json

/-- Data as it is named in messages. -/
def Data.describe : Data → String
  | .null => "null"
  | .boolean b => s!"boolean `{b}`"
  | .integer n => s!"integer `{n}`"
  | .real x => s!"floating point `{String.ofList x.text}`"
  | .string s => s!"string {Quoted.quote s}"
  | .array _ => "sequence"
  | .object _ => "map"

end LocaleStrings.Json
