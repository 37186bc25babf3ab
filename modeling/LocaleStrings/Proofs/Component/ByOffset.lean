import LocaleStrings.Component.Block
import LocaleStrings.Proofs.Source.Units

/-!
# Scanning a component by byte offsets

A scanner that keeps an offset into the source, steps over single bytes and cuts the source at the
offsets it comes to. It gives no result where a cut falls inside a character or behind the end of
the source, where a count goes below zero, and where a loop does not end: the loops are least fixed
points in `Option`, and neither their end nor that of the source is built into them.

* `Loop`, `Loop.run`: loops, by what one round of them does;
* `rest?`, `between?`, `units?`: the cuts, which may fail;
* `skip`, `nextMark`, `behindNext`: runs of bytes, and searches;
* `attributes`, `openTag`: opening tags;
* `plainClose`, `nestedClose`: the end of a block;
* `scan`: the loop over the blocks.
-/

namespace LocaleStrings.Component.ByOffset

/-! ## Loops -/

/-- What a round of a loop comes to. -/
inductive Round (σ α : Type) where
  /-- The loop goes on from a state. -/
  | next (s : σ)
  /-- The loop ends with a result. -/
  | done (a : α)

/-- A loop, by its rounds. A round may fail. -/
structure Loop (σ α : Type) where
  round : σ → Option (Round σ α)

/-- The result of a loop from a state on. Nothing but its rounds ends it. -/
def Loop.run {σ α : Type} (l : Loop σ α) (s : σ) : Option α := do
  match ← l.round s with
  | .next s => l |>.run s
  | .done a => return a
partial_fixpoint

theorem Loop.run_congr {σ α : Type} {l : Loop σ α} {s t : σ} (h : l.round s = l.round t) :
    l.run s = l.run t := by
  rw [Loop.run, h, ← Loop.run]

/-! ## Cuts and searches -/

/-- What is left of the source behind byte `pos`. -/
def rest? (source : Text) (pos : Nat) : Option Text := (Text.splitAt? pos source).map Prod.snd

/-- The source between two offsets. -/
def between? (source : Text) (start stop : Nat) : Option Text := (⟨start, stop⟩ : Span).slice source

/-- The bytes of the source behind byte `pos`. -/
def units? (source : Text) (pos : Nat) : Option (List Char) :=
  if pos ≤ source.units.length then some (source.units.drop pos) else none

/-- The offset behind the bytes from `pos` on that satisfy `p`. -/
def skip (source : Text) (p : Char → Bool) (pos : Nat) : Nat :=
  pos + ((source.units.drop pos).takeWhile p).length

/-- The byte offset of the first occurrence of `wanted` in a text. -/
def find? (wanted : Text) : Text → Option Nat
  | [] => none
  | c :: cs =>
    if wanted.isPrefixOf (c :: cs) then some 0 else (find? wanted cs).map (c.utf8Size + ·)

/-- The offset of the next `<` from `pos` on, if there is one. -/
def nextMark (source : Text) (pos : Nat) : Option (Option Nat) := do
  let rest ← rest? source pos
  return (find? ['<'] rest).map (pos + ·)

/-- The offset behind the next occurrence of `wanted` from `pos` on, or the end of the source. -/
def behindNext (source wanted : Text) (pos : Nat) : Option Nat := do
  let rest ← rest? source pos
  return match find? wanted rest with
    | some i => pos + i + Text.size wanted
    | none => Text.size source

/-- The offset behind the comment at `pos`. -/
def commentEnd (source : Text) (pos : Nat) : Option Nat :=
  behindNext source "-->".toList (pos + 4)

/-- The offset behind the declaration, instruction or closing tag at `pos`. -/
def markEnd (source : Text) (pos : Nat) : Option Nat := behindNext source ['>'] pos

/-- The offset behind the closing tag at `pos`, looked for among the bytes. -/
def closingEnd (source : Text) (pos : Nat) : Option Nat := do
  let units ← units? source pos
  return match units.findIdx? (· == '>') with
    | some i => pos + i + 1
    | none => Text.size source

/-- The value of an attribute at `pos`, and the offset behind it. -/
def attrValue (source : Text) (pos : Nat) : Option (Option (Text × Nat)) :=
  match source.units[pos]? with
  | none => some none
  | some c =>
    if c = '"' ∨ c = '\'' then do
      let units ← units? source (pos + 1)
      match units.findIdx? (· == c) with
      | none => return none
      | some i =>
        let value ← between? source (pos + 1) (pos + 1 + i)
        return some (value, pos + 1 + i + 1)
    else do
      let stop := skip source isBareValueChar pos
      let value ← between? source pos stop
      return some (value, stop)

/-- The attribute whose name stands between `pos` and `stop`, and the offset behind it. -/
def attr (source : Text) (pos stop : Nat) : Option (Option (Attribute × Nat)) := do
  let name ← between? source pos stop
  let behind := skip source Ascii.isBlank stop
  if source.units[behind]? = some '=' then
    let value ← attrValue source (skip source Ascii.isBlank (behind + 1))
    return value.map fun (value, next) => (⟨name, some value⟩, next)
  else return some (⟨name, none⟩, stop)

/-- One round of the loop over the attributes of a tag. -/
def attributesRound (source : Text) : List Attribute × Nat →
    Option (Round (List Attribute × Nat) (Option (List Attribute × Bool × Nat)))
  | (read, pos) =>
    let pos := skip source Ascii.isBlank pos
    match source.units[pos]? with
    | none => some (.done none)
    | some c =>
      if c = '>' then some (.done (some (read, false, pos + 1)))
      else if c = '/' ∧ source.units[pos + 1]? = some '>' then
        some (.done (some (read, true, pos + 2)))
      else
        let stop := skip source isAttrNameChar pos
        if stop = pos then some (.next (read, pos + 1))
        else do
          match ← attr source pos stop with
          | none => return .done none
          | some (a, next) => return .next (read ++ [a], next)

/-- The attributes from `pos` to the end of a tag, behind the ones read already, whether the tag
closes itself, and the offset behind it. -/
def attributes (source : Text) (read : List Attribute) (pos : Nat) :
    Option (Option (List Attribute × Bool × Nat)) :=
  Loop.run ⟨attributesRound source⟩ (read, pos)

/-- The opening tag whose `<` is at `pos`, and the offset behind it. -/
def openTag (source : Text) (pos : Nat) : Option (Option (OpenTag × Nat)) :=
  match source.units[pos + 1]? with
  | none => some none
  | some c =>
    if Ascii.isLetter c then do
      let stop := skip source isNameChar (pos + 1)
      let name ← between? source (pos + 1) stop
      match ← attributes source [] stop with
      | none => return none
      | some (attrs, selfClosing, next) => return some (⟨name, attrs, selfClosing⟩, next)
    else some none

/-- Whether a closing tag of the given name is at `pos`. -/
def closesAt (source name : Text) (pos : Nat) : Bool :=
  closes name.units (source.units.drop pos)

/-- Where the content of a block that starts at `pos` ends, and the offset behind its closing
tag. -/
def plainClose (source name : Text) (pos : Nat) : Option (Nat × Nat) :=
  match (List.range' pos (source.units.length - pos)).find? (closesAt source name) with
  | none => some (Text.size source, Text.size source)
  | some stop => do return (stop, ← closingEnd source stop)

/-- One round of the search for the end of a block that nests. -/
def nestedRound (source name : Text) : Nat × Nat → Option (Round (Nat × Nat) (Nat × Nat))
  | (depth, pos) => do
    match ← nextMark source pos with
    | none => return .done (Text.size source, Text.size source)
    | some here =>
      let rest ← rest? source here
      if Text.startsWith rest "<!--" then return .next (depth, ← commentEnd source here)
      else if closesAt source name here then
        match depth with
        | 0 => none
        | 1 => return .done (here, ← closingEnd source here)
        | depth + 1 => return .next (depth, here + 2)
      else
        match ← openTag source here with
        | none => return .next (depth, here + 1)
        | some (tag, next) =>
          if Ascii.sameIgnoringCase tag.name name then return .next (depth + tag.opened, next)
          else return .next (depth, here + 1)

/-- The same for a block that nests, when `depth` tags of the name are open at `pos`. -/
def nestedClose (source name : Text) (depth pos : Nat) : Option (Nat × Nat) :=
  Loop.run ⟨nestedRound source name⟩ (depth, pos)

/-- The same for any block. -/
def close (source name : Text) (pos : Nat) : Option (Nat × Nat) :=
  if Ascii.sameIgnoringCase name templateName then nestedClose source name 1 pos
  else plainClose source name pos

/-- One round of the loop over the blocks. -/
def scanRound (source : Text) : List Block × Nat → Option (Round (List Block × Nat) (List Block))
  | (found, pos) => do
    match ← nextMark source pos with
    | none => return .done found
    | some here =>
      let rest ← rest? source here
      if Text.startsWith rest "<!--" then return .next (found, ← commentEnd source here)
      else if Text.startsWith rest "</" || Text.startsWith rest "<!" || Text.startsWith rest "<?" then
        return .next (found, ← markEnd source here)
      else
        match ← openTag source here with
        | none => return .next (found, here + 1)
        | some (tag, start) =>
          if tag.selfClosing then
            return .next (found ++ [⟨tag.name, tag.attrs, [], start, start⟩], start)
          else do
            let (stop, next) ← close source tag.name start
            let content ← between? source start stop
            return .next (found ++ [⟨tag.name, tag.attrs, content, start, stop⟩], next)

/-- The blocks from `pos` on, behind the ones found already. -/
def scan (source : Text) (found : List Block) (pos : Nat) : Option (List Block) :=
  Loop.run ⟨scanRound source⟩ (found, pos)

end LocaleStrings.Component.ByOffset
