import LocaleStrings.Json.Data

/-!
# Writing JSON data

* `Write.string`: a quoted string, with escapes for quote, backslash and control characters;
* `Data.compact`: the data without blanks;
* `Data.pretty`: one item or member a line, indented by two spaces a level.
-/

namespace LocaleStrings.Json

namespace Write

/-- A hexadecimal digit in lower case. -/
def hexDigit (n : Nat) : Char := Nat.digitChar n

/-- A character inside a string. -/
def escape (c : Char) : Text :=
  if c = '"' then ['\\', '"']
  else if c = '\\' then ['\\', '\\']
  else if c = '\x08' then ['\\', 'b']
  else if c = '\x0c' then ['\\', 'f']
  else if c = '\n' then ['\\', 'n']
  else if c = '\r' then ['\\', 'r']
  else if c = '\t' then ['\\', 't']
  else if c < ' ' then ['\\', 'u', '0', '0', hexDigit (c.toNat / 16), hexDigit (c.toNat % 16)]
  else [c]

/-- A string with its quotes. -/
def string (t : Text) : Text := '"' :: (t.flatMap escape ++ ['"'])

/-- A whole number in decimal digits. -/
def integer : Int → Text
  | .ofNat n => Nat.toDigits 10 n
  | .negSucc n => '-' :: Nat.toDigits 10 (n + 1)

/-- A truth value. -/
def boolean (b : Bool) : Text := if b then "true".toList else "false".toList

/-- A line break and the indentation of a level. -/
def newline (level : Nat) : Text := '\n' :: List.replicate (2 * level) ' '

end Write

namespace Data

mutual

/-- The data without blanks. -/
def compact : Data → Text
  | .null => "null".toList
  | .boolean b => Write.boolean b
  | .integer n => Write.integer n
  | .real x => x.text
  | .string s => Write.string s
  | .array items => '[' :: (compactItems items ++ [']'])
  | .object members => '\x7b' :: (compactMembers members ++ ['\x7d'])

/-- Items with commas between them. -/
def compactItems : List Data → Text
  | [] => []
  | [d] => d.compact
  | d :: ds => d.compact ++ ',' :: compactItems ds

/-- Members with commas between them. -/
def compactMembers : List (Text × Data) → Text
  | [] => []
  | [(k, d)] => Write.string k ++ ':' :: d.compact
  | (k, d) :: ms => Write.string k ++ ':' :: d.compact ++ ',' :: compactMembers ms

end

mutual

/-- The data with line breaks, at a level of indentation. -/
def prettyAt (level : Nat) : Data → Text
  | .null => "null".toList
  | .boolean b => Write.boolean b
  | .integer n => Write.integer n
  | .real x => x.text
  | .string s => Write.string s
  | .array [] => ['[', ']']
  | .array (d :: ds) =>
    '[' :: (prettyItems (level + 1) (d :: ds) ++ Write.newline level ++ [']'])
  | .object [] => ['\x7b', '\x7d']
  | .object (m :: ms) =>
    '\x7b' :: (prettyMembers (level + 1) (m :: ms) ++ Write.newline level ++ ['\x7d'])

/-- Items on lines of their own. -/
def prettyItems (level : Nat) : List Data → Text
  | [] => []
  | [d] => Write.newline level ++ d.prettyAt level
  | d :: ds => Write.newline level ++ d.prettyAt level ++ ',' :: prettyItems level ds

/-- Members on lines of their own. -/
def prettyMembers (level : Nat) : List (Text × Data) → Text
  | [] => []
  | [(k, d)] => Write.newline level ++ Write.string k ++ ':' :: ' ' :: d.prettyAt level
  | (k, d) :: ms =>
    Write.newline level ++ Write.string k ++ ':' :: ' ' :: d.prettyAt level
      ++ ',' :: prettyMembers level ms

end

/-- The data with one item or member a line. -/
def pretty (d : Data) : Text := d.prettyAt 0

end Data

end LocaleStrings.Json
