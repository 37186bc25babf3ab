import LocaleStrings.Glob.Match

/-!
# How patterns are looked up

Most patterns say something plain about a path: all of it, its beginning, its end, its file name or
the extension of its file name. Only the others are tried as expressions.

* `Lookup`: the ways to look up a pattern, `Lookup.ofPieces` finds the one for given pieces;
* `Piece.staysInside`: whether a piece never crosses a slash;
* `Lookup.asksName`: whether the file name of a path decides;
* `namesParent`: whether a path ends with `..`, which is no file name.
-/

namespace LocaleStrings.Glob

/-- The way to look up a pattern. -/
inductive Lookup where
  /-- The pattern is one path. -/
  | path
  /-- The pattern gives the beginning of a path. -/
  | beginning
  /-- The pattern gives the end of a path, of more than one part. -/
  | ending
  /-- The pattern gives a file name in any directory. -/
  | name
  /-- The pattern gives the extension of the file name; an expression decides among the paths with
  that extension. -/
  | extension
  /-- An expression decides, of which only the last part of a path matters. -/
  | lastPart
  /-- An expression decides. -/
  | expression
deriving DecidableEq, Repr

/-- The character that a piece stands for, if it is a literal. -/
def Piece.literal? : Piece → Option Char
  | .literal c => some c
  | _ => none

/-- The text that pieces stand for, if they are literals. -/
def literals? (pieces : List Piece) : Option Text := pieces.mapM Piece.literal?

/-- Whether pieces, given from the last one on, end with a literal extension: a dot with no slash
behind it. -/
def endsWithExtension : List Piece → Bool
  | .literal c :: before =>
    if c = '.' then true else if c = '/' then false else endsWithExtension before
  | _ => false

/-- Whether pieces are literals with anything behind them. -/
def isBeginning (pieces : List Piece) : Bool :=
  match pieces.getLast? with
  | some .trailingDirs => (literals? pieces.dropLast).isSome
  | _ => false

/-- Whether a piece never crosses a slash. Groups are not looked into. -/
def Piece.staysInside : Piece → Bool
  | .literal c => c != '/'
  | .any | .star => true
  | .oneOf negated ranges => (ranges.any fun r => r.1 ≤ '/' && '/' ≤ r.2) == negated
  | .leadingDirs | .trailingDirs | .innerDirs | .group _ => false

/-- Whether pieces leave open in which directory the last part of a path is, and say something
about that part only. -/
def isLastPart : List Piece → Bool
  | .leadingDirs :: p :: ps => (p :: ps).all Piece.staysInside
  | _ => false

/-- The way to look up pieces that are not plain at one of their ends. -/
def Lookup.ofMixed (pieces : List Piece) : Lookup :=
  if endsWithExtension pieces.reverse then .extension
  else if isLastPart pieces then .lastPart
  else .expression

/-- The way to look up pieces. -/
def Lookup.ofPieces (pieces : List Piece) : Lookup :=
  match pieces with
  | [] => .expression
  | .leadingDirs :: rest =>
    match literals? rest with
    | some [] => .expression
    | some text => if text.contains '/' then .ending else .name
    | none => .ofMixed pieces
  | _ =>
    if (literals? pieces).isSome then .path
    else if isBeginning pieces then .beginning
    else .ofMixed pieces

/-- Whether the file name of a path decides. -/
def Lookup.asksName : Lookup → Bool
  | .name | .extension => true
  | .path | .beginning | .ending | .lastPart | .expression => false

/-- Whether the last part of a path is `..`, so that the path has no file name. -/
def namesParent (path : Text) : Bool := path.reverse.takeWhile (· != '/') == ['.', '.']

/-- Whether pieces match a path: a path without file name has none that could be asked for. -/
def finds (pieces : List Piece) (path : Text) : Bool :=
  isMatch pieces path && !((Lookup.ofPieces pieces).asksName && namesParent path)

end LocaleStrings.Glob
