import LocaleStrings.Glob.Pattern

/-!
# Matching paths

A pattern matches a path if the bytes of the path can be cut into parts that the pieces match, in
order. Matching marks the cuts behind the pieces so far, and every piece moves the marks in a few
passes over the path.

* `Marks`: the marks of a path, at first `Marks.start`;
* `Marks.overByte`, `Marks.overRun`, `Marks.union`: the moves that the moves of pieces are made of;
* `Piece.move`, `moveAll`: moves the marks over a piece, and over pieces;
* `isMatch`: whether pieces match a whole path.
-/

namespace LocaleStrings.Glob

/-- The byte of a slash. -/
def slash : UInt8 := 47

/-! ## Marks -/

/-- The marks of a path: one before each byte and one behind the last, set where the pieces so far
can end. -/
abbrev Marks := List Bool

namespace Marks

/-- The mark before the path is set, and no other. -/
def start (path : List UInt8) : Marks := true :: path.map fun _ => false

/-- No mark is set. -/
def clear (marks : Marks) : Marks := marks.map fun _ => false

/-- The marks that are set on one side at least. -/
def union (left right : Marks) : Marks := List.zipWith (· || ·) left right

/-- Moves the marks over one byte that passes a test. -/
def overByte (test : UInt8 → Bool) (path : List UInt8) (marks : Marks) : Marks :=
  false :: List.zipWith (fun mark b => mark && test b) marks path

/-- Moves the marks over any number of bytes that pass a test, where `carried` says whether a mark
further left has come so far. -/
def overRunFrom (test : UInt8 → Bool) (carried : Bool) : List UInt8 → Marks → Marks
  | _, [] => []
  | [], mark :: _ => [carried || mark]
  | b :: path, mark :: marks =>
    (carried || mark) :: overRunFrom test ((carried || mark) && test b) path marks

/-- Moves the marks over any number of bytes that pass a test. -/
def overRun (test : UInt8 → Bool) (path : List UInt8) (marks : Marks) : Marks :=
  overRunFrom test false path marks

/-- Moves the marks over given bytes. -/
def overBytes (bytes path : List UInt8) (marks : Marks) : Marks :=
  bytes.foldl (fun marks b => overByte (· == b) path marks) marks

/-- Moves the marks over a slash. -/
def overSlash (path : List UInt8) (marks : Marks) : Marks := overByte (· == slash) path marks

/-- Moves the marks over any bytes. -/
def overAnything (path : List UInt8) (marks : Marks) : Marks := overRun (fun _ => true) path marks

/-- Whether the mark behind the path is set. -/
def atEnd (marks : Marks) : Bool := marks.getLast? == some true

end Marks

/-! ## Pieces -/

/-- The ranges of bytes for a range of characters: the last byte of the lower end and the first of
the upper end make a range, and the bytes around them stand for themselves. -/
def byteRanges (r : Char × Char) : List (UInt8 × UInt8) :=
  let low := String.utf8EncodeChar r.1
  let high := String.utf8EncodeChar r.2
  let alone (bs : List UInt8) := bs.map fun b => (b, b)
  if r.1 = r.2 then alone low
  else
    alone low.dropLast
      ++ (match low.getLast?, high.head? with
        | some a, some b => [(a, b)]
        | _, _ => [])
      ++ alone high.tail

/-- Whether a byte is in brackets. -/
def inClass (negated : Bool) (ranges : List (UInt8 × UInt8)) (b : UInt8) : Bool :=
  (ranges.any fun r => r.1 ≤ b && b ≤ r.2) != negated

mutual

/-- Whether a piece contributes nothing to a pattern. -/
def Piece.isVoid : Piece → Bool
  | .group branches => allVoid branches
  | .literal _ | .any | .star | .leadingDirs | .trailingDirs | .innerDirs | .oneOf _ _ => false

/-- Whether pieces contribute nothing to a pattern. -/
def isVoid : List Piece → Bool
  | [] => true
  | p :: ps => p.isVoid && isVoid ps

/-- Whether all branches of a group contribute nothing. -/
def allVoid : List (List Piece) → Bool
  | [] => true
  | b :: bs => isVoid b && allVoid bs

end

open Marks in
mutual

/-- Moves the marks over a piece. A group whose branches are all void matches the empty path;
otherwise its void branches do not count. -/
def Piece.move (path : List UInt8) (marks : Marks) : Piece → Marks
  | .literal c => overBytes (String.utf8EncodeChar c) path marks
  | .any => overByte (· != slash) path marks
  | .star => overRun (· != slash) path marks
  | .leadingDirs => union marks (overSlash path (overAnything path marks))
  | .trailingDirs => overAnything path (overSlash path marks)
  | .innerDirs =>
    let behind := overSlash path marks
    union behind (overSlash path (overAnything path behind))
  | .oneOf negated ranges =>
    let bytes := ranges.flatMap byteRanges
    overByte (inClass negated bytes) path marks
  | .group branches => if allVoid branches then marks else moveAny path marks branches

/-- Moves the marks over pieces. -/
def moveAll (path : List UInt8) (marks : Marks) : List Piece → Marks
  | [] => marks
  | p :: ps => moveAll path (p.move path marks) ps

/-- Moves the marks over one of several branches that are not void. -/
def moveAny (path : List UInt8) (marks : Marks) : List (List Piece) → Marks
  | [] => clear marks
  | b :: bs =>
    if isVoid b then moveAny path marks bs
    else union (moveAll path marks b) (moveAny path marks bs)

end

/-- Whether the pattern is nothing but leading directories. -/
def isEverything : List Piece → Bool
  | [.leadingDirs] => true
  | _ => false

/-- Whether pieces match bytes from the first to the last. -/
def matchesBytes (pieces : List Piece) (path : List UInt8) : Bool :=
  (moveAll path (.start path) pieces).atEnd

/-- Whether pieces match a whole path. -/
def isMatch (pieces : List Piece) (path : Text) : Bool :=
  isEverything pieces || matchesBytes pieces path.bytes

end LocaleStrings.Glob
