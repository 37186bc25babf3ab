import LocaleStrings.Glob.Match

/-!
# The expressions of patterns

A pattern can be written as a regular expression over bytes. Expressions must not be nested too
deep, so that neither can the groups of a pattern.

* `Expression`: regular expressions, `Expression.text` writes one;
* `Expression.depth`: how deep the parts of an expression are nested, at most
  `Expression.depthLimit`;
* `Expression.ofPieces`: the expression of a pattern.
-/

namespace LocaleStrings.Glob

/-- A regular expression over bytes. -/
inductive Expression where
  /-- One given byte. -/
  | byte (b : UInt8)
  /-- Any byte. -/
  | anyByte
  /-- One byte of the given ranges, or of none of them. -/
  | oneOf (negated : Bool) (ranges : List (UInt8 × UInt8))
  /-- A part that may be missing. -/
  | optional (part : Expression)
  /-- A part that is repeated any number of times. -/
  | repeated (part : Expression)
  /-- Parts one behind another. -/
  | sequence (parts : List Expression)
  /-- One of several parts, in brackets. -/
  | choice (branches : List Expression)
deriving Repr

namespace Expression

/-! ## Writing -/

/-- The characters that have a meaning in expressions. -/
def marks : Text := "\\.+*?()|[]\x7b\x7d^$#&-~".toList

/-- A byte as it is written: a backslash stands before a character with a meaning, and a byte that
is no character is written by its code. -/
def byteText (b : UInt8) : Text :=
  let c := Char.ofNat b.toNat
  if b ≤ 0x7F then (if marks.contains c then ['\\', c] else [c])
  else '\\' :: 'x' :: Nat.toDigits 16 b.toNat

/-- A range of bytes as it is written. -/
def rangeText (r : UInt8 × UInt8) : Text :=
  if r.1 = r.2 then byteText r.1 else byteText r.1 ++ '-' :: byteText r.2

mutual

/-- An expression as it is written. -/
def text : Expression → Text
  | .byte b => byteText b
  | .anyByte => ['.']
  | .oneOf negated ranges =>
    '[' :: ((if negated then ['^'] else []) ++ ranges.flatMap rangeText ++ [']'])
  | .optional part => part.text ++ ['?']
  | .repeated part => part.text ++ ['*']
  | .sequence parts => textOfParts parts
  | .choice branches => "(?:".toList ++ textOfBranches branches ++ [')']

/-- Parts as they are written one behind another. -/
def textOfParts : List Expression → Text
  | [] => []
  | p :: ps => p.text ++ textOfParts ps

/-- Branches as they are written, with bars between them. -/
def textOfBranches : List Expression → Text
  | [] => []
  | [b] => b.text
  | b :: bs => b.text ++ '|' :: textOfBranches bs

end

/-! ## Depth -/

/-- The greatest depth of an expression. -/
def depthLimit : Nat := 250

/-- The depth of several parts: a single part stands for itself. -/
def joined (count depth : Nat) : Nat := if count = 1 then depth else depth + 1

mutual

/-- How deep the parts of an expression are nested. -/
def depth : Expression → Nat
  | .byte _ | .anyByte => 0
  | .oneOf _ ranges => joined ranges.length 1
  | .optional part => part.depth + 1
  | .repeated part => part.depth + 1
  | .sequence parts => joined parts.length (greatestDepth parts)
  | .choice branches => joined branches.length (greatestDepth branches) + 1

/-- The greatest depth of several expressions. -/
def greatestDepth : List Expression → Nat
  | [] => 0
  | e :: es => max e.depth (greatestDepth es)

end

/-! ## Patterns -/

/-- Any byte other than a slash. -/
def inside : Expression := .oneOf true [(slash, slash)]

/-- Any bytes. -/
def anything : Expression := .repeated .anyByte

mutual

/-- The parts that a piece contributes. A branch without parts does not count, and a group without
branches contributes nothing. -/
def ofPiece : Piece → List Expression
  | .literal c => (String.utf8EncodeChar c).map .byte
  | .any => [inside]
  | .star => [.repeated inside]
  | .leadingDirs =>
    [.choice [.sequence [.optional (.byte slash)], .sequence [anything, .byte slash]]]
  | .trailingDirs => [.byte slash, anything]
  | .innerDirs =>
    [.choice [.sequence [.byte slash], .sequence [.byte slash, anything, .byte slash]]]
  | .oneOf negated ranges => [.oneOf negated (ranges.flatMap byteRanges)]
  | .group branches =>
    match ofBranches branches with
    | [] => []
    | bs => [.choice bs]

/-- The parts that pieces contribute. -/
def partsOf : List Piece → List Expression
  | [] => []
  | p :: ps => ofPiece p ++ partsOf ps

/-- The branches that have parts. -/
def ofBranches : List (List Piece) → List Expression
  | [] => []
  | b :: bs =>
    match partsOf b with
    | [] => ofBranches bs
    | parts => .sequence parts :: ofBranches bs

end

/-- The parts of the expression of a pattern. -/
def ofPieces (pieces : List Piece) : List Expression :=
  if isEverything pieces then [anything] else partsOf pieces

/-- The expression of a pattern as it is written, for bytes and with marks for both ends. -/
def patternText (pieces : List Piece) : Text :=
  "(?-u)^".toList ++ textOfParts (ofPieces pieces) ++ ['$']

/-- Whether the expression of a pattern is nested too deep. The parts stand in a sequence with the
marks for both ends. -/
def tooDeep (pieces : List Piece) : Bool := depthLimit < greatestDepth (ofPieces pieces) + 1

end Expression

end LocaleStrings.Glob
