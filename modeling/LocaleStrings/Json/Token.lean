import LocaleStrings.Json.Cursor

/-!
# Tokens of JSON texts

Both readers of JSON texts, the strict and the lenient one, cut the text into the same tokens.

* `Kind`: what a token stands for;
* `Token`: a kind with the place and the characters it was written with.
-/

namespace LocaleStrings.Json

/-- What a token stands for. -/
inductive Kind where
  | openObject
  | closeObject
  | openArray
  | closeArray
  | comma
  | colon
  /-- A quoted text, with its escapes decoded. -/
  | string (value : Text)
  | number
  | boolean (value : Bool)
  | null
  /-- A bare word; only the lenient reader knows these. -/
  | word
deriving DecidableEq, Repr

/-- A token of a text. -/
structure Token where
  /-- The byte offset of its first character. -/
  start : Nat
  /-- The characters it was written with. -/
  lexeme : Text
  /-- What it stands for. -/
  kind : Kind
deriving DecidableEq, Repr

/-- The byte offset behind a token. -/
def Token.stop (t : Token) : Nat := t.start + Text.size t.lexeme

/-- The token of kind `kind` between two cursors of a text. -/
def Token.between (here next : Cursor) (kind : Kind) : Token :=
  ⟨here.offset, here.upTo next, kind⟩

/-- The brackets and marks that are tokens by themselves. -/
def Kind.ofMark? : Char → Option Kind
  | '\x7b' => some .openObject
  | '\x7d' => some .closeObject
  | '[' => some .openArray
  | ']' => some .closeArray
  | ',' => some .comma
  | ':' => some .colon
  | _ => none

/-- The code point of a surrogate pair. -/
def ofSurrogates (high low : Nat) : Char :=
  Char.ofNat (0x10000 + (high - 0xD800) * 0x400 + (low - 0xDC00))

/-- The first half of a surrogate pair. -/
def isHighSurrogate (n : Nat) : Bool := 0xD800 ≤ n && n ≤ 0xDBFF

/-- The second half of a surrogate pair. -/
def isLowSurrogate (n : Nat) : Bool := 0xDC00 ≤ n && n ≤ 0xDFFF

/-- The character of a one-letter escape. -/
def escaped? : Char → Option Char
  | '"' => some '"'
  | '\\' => some '\\'
  | '/' => some '/'
  | 'b' => some '\x08'
  | 'f' => some '\x0c'
  | 'n' => some '\n'
  | 'r' => some '\r'
  | 't' => some '\t'
  | _ => none

end LocaleStrings.Json
