import LocaleStrings.Text.Basic
import LocaleStrings.Text.Shapeless

/-!
# Quoted texts in messages

A text is quoted with double quotes. Quote, backslash, tab, newline, carriage return and the null
character have escapes of two characters; a character without shape is written by its code.
-/

namespace LocaleStrings.Quoted

/-- The digits of a code point, in lower-case hexadecimal. -/
def code (c : Char) : Text := Nat.toDigits 16 c.toNat

/-- A character inside a quoted text. -/
def escape (c : Char) : Text :=
  if c = '"' then ['\\', '"']
  else if c = '\\' then ['\\', '\\']
  else if c = '\t' then ['\\', 't']
  else if c = '\n' then ['\\', 'n']
  else if c = '\r' then ['\\', 'r']
  else if c = '\x00' then ['\\', '0']
  else if isShapeless c then '\\' :: 'u' :: '\x7b' :: (code c ++ ['\x7d'])
  else [c]

/-- A quoted text. -/
def quote (t : Text) : String := String.ofList ('"' :: (t.flatMap escape ++ ['"']))

end LocaleStrings.Quoted
