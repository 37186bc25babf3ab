import LocaleStrings.Glob.Expression
import LocaleStrings.Glob.Lookup

/-!
# Several patterns

A matcher holds several patterns, of which one has to match. Patterns are read first; then the ones
that are tried as expressions must not be nested too deep.

* `Matcher.Error`: why patterns make no matcher, with its wording in `Matcher.Error.message`;
* `Matcher.ofPatterns`: the matcher of patterns;
* `Matcher.isMatch`: whether one of the patterns matches a path.
-/

namespace LocaleStrings.Glob

/-- Why patterns make no matcher. -/
inductive Matcher.Error where
  /-- A pattern is wrong. -/
  | invalid (pattern : Text) (error : Glob.Error)
  /-- The expression of a pattern with an extension is nested too deep. -/
  | deepExtension (expression : Text)
  /-- An expression is nested too deep, with its index among the other expressions. -/
  | deepExpression (index : Nat)
deriving DecidableEq, Repr

/-- The wording of an error. -/
def Matcher.Error.message : Matcher.Error → String
  | .invalid pattern error =>
    "Invalid glob pattern: error parsing glob '" ++ String.ofList pattern ++ "': " ++ error.message
  | .deepExtension expression =>
    "Failed to build globset: error parsing glob '" ++ String.ofList expression
      ++ "': error parsing pattern 0"
  | .deepExpression index => s!"Failed to build globset: error parsing pattern {index}"

/-- Several patterns. -/
structure Matcher where
  globs : List (List Piece)

namespace Matcher

/-- The pieces of patterns, or the first pattern that is wrong. -/
def parseAll : List Text → Except Error (List (List Piece))
  | [] => .ok []
  | p :: ps =>
    match parse p with
    | .error e => .error (.invalid p e)
    | .ok pieces => (parseAll ps).map (pieces :: ·)

/-- The patterns that are looked up in a given way. -/
def lookedUp (way : Lookup) (globs : List (List Piece)) : List (List Piece) :=
  globs.filter fun g => Lookup.ofPieces g = way

/-- The fault of patterns that are nested too deep: extensions come before other expressions. -/
def depthFault? (globs : List (List Piece)) : Option Error :=
  match (lookedUp .extension globs).find? Expression.tooDeep with
  | some g => some (.deepExtension (Expression.patternText g))
  | none => ((lookedUp .expression globs).findIdx? Expression.tooDeep).map .deepExpression

/-- The matcher of patterns. -/
def ofPatterns (patterns : List Text) : Except Error Matcher := do
  let globs ← parseAll patterns
  match depthFault? globs with
  | some e => throw e
  | none => return ⟨globs⟩

/-- Whether one of the patterns matches a path. -/
def isMatch (m : Matcher) (path : Text) : Bool := m.globs.any fun g => finds g path

/-- Whether there are no patterns. -/
def isEmpty (m : Matcher) : Bool := m.globs.isEmpty

end Matcher

end LocaleStrings.Glob
