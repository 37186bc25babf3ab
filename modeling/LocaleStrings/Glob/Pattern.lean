import LocaleStrings.Text.Basic

/-!
# Glob patterns

A pattern is a list of pieces. `?` and `*` stay inside a directory, `**` between slashes crosses
directories, brackets list characters and braces list alternatives.

* `Piece`: the pieces of a pattern;
* `Glob.Error`: what is wrong with a pattern, with its wording in `Glob.Error.message`;
* `Glob.parse`: the pieces of a pattern.
-/

namespace LocaleStrings.Glob

/-- A piece of a pattern. -/
inductive Piece where
  /-- A character that stands for itself. -/
  | literal (c : Char)
  /-- `?`: one byte other than a slash. -/
  | any
  /-- `*`: bytes other than slashes. -/
  | star
  /-- `**/` in front: any directories, or none. -/
  | leadingDirs
  /-- `/**` at the end: anything behind a slash. -/
  | trailingDirs
  /-- `/**/`: a slash, or two with anything between them. -/
  | innerDirs
  /-- Brackets: one byte of the given ranges, or one of no range. -/
  | oneOf (negated : Bool) (ranges : List (Char × Char))
  /-- Braces: one of several patterns. -/
  | group (branches : List (List Piece))
deriving Repr

/-- What is wrong with a pattern. -/
inductive Error where
  | unclosedClass
  | invalidRange (low high : Char)
  | unopenedGroup
  | unclosedGroup
  | danglingEscape
deriving DecidableEq, Repr

/-- The wording of an error. -/
def Error.message : Error → String
  | .unclosedClass => "unclosed character class; missing ']'"
  | .invalidRange low high =>
    "invalid range; '" ++ String.singleton low ++ "' > '" ++ String.singleton high ++ "'"
  | .unopenedGroup =>
    "unopened alternate group; missing '\x7b' (maybe escape '\x7d' with '[\x7d]'?)"
  | .unclosedGroup =>
    "unclosed alternate group; missing '\x7d' (maybe escape '\x7b' with '[\x7b]'?)"
  | .danglingEscape => "dangling '\\'"

/-! ## Brackets -/

/-- Brackets that are being read. -/
structure ClassState where
  /-- The ranges so far, last one first. -/
  ranges : List (Char × Char)
  /-- Whether nothing was read yet. -/
  first : Bool
  /-- Whether a dash behind a character waits for the end of a range. -/
  inRange : Bool

namespace ClassState

/-- Brackets of which nothing was read yet. -/
def start : ClassState := ⟨[], true, false⟩

/-- Makes a character the upper end of the last range. -/
def extend (c : Char) : List (Char × Char) → Except Error (List (Char × Char))
  | [] => .ok [(c, c)]
  | (low, _) :: others => if c < low then .error (.invalidRange low c) else .ok ((low, c) :: others)

/-- Takes a character that does not close the brackets. -/
def push (s : ClassState) (c : Char) : Except Error ClassState :=
  if s.inRange then (extend c s.ranges).map fun ranges => ⟨ranges, false, false⟩
  else if c = '-' ∧ ¬ s.first then .ok ⟨s.ranges, false, true⟩
  else .ok ⟨(c, c) :: s.ranges, false, false⟩

/-- The ranges of brackets that are closed: a dash at the end stands for itself. -/
def close (s : ClassState) : List (Char × Char) :=
  (if s.inRange then ('-', '-') :: s.ranges else s.ranges).reverse

end ClassState

/-- The ranges in brackets and what follows them. -/
def classBody (s : ClassState) : Text → Except Error (List (Char × Char) × Text)
  | [] => .error .unclosedClass
  | c :: cs =>
    if c = ']' ∧ ¬ s.first then .ok (s.close, cs)
    else match s.push c with
      | .error e => .error e
      | .ok s => classBody s cs

/-- Whether brackets are negated, and what follows the mark for it. -/
def classHead : Text → Bool × Text
  | '!' :: cs => (true, cs)
  | '^' :: cs => (true, cs)
  | cs => (false, cs)

/-! ## Patterns -/

/-- An open group. -/
structure Level where
  /-- The pieces before the group, last one first. -/
  before : List Piece
  /-- The branches that are complete, last one first. -/
  branches : List (List Piece)

/-- A pattern that is being read. -/
structure Progress where
  /-- The pieces of the current branch, last one first. -/
  current : List Piece
  /-- The open groups, innermost first. -/
  levels : List Level

namespace Progress

/-- A pattern of which nothing was read yet. -/
def start : Progress := ⟨[], []⟩

/-- Whether a group is open. -/
def isNested (p : Progress) : Bool := !p.levels.isEmpty

/-- Appends a piece. -/
def push (p : Progress) (piece : Piece) : Progress := ⟨piece :: p.current, p.levels⟩

/-- Opens a group. -/
def openGroup (p : Progress) : Progress := ⟨[], ⟨p.current, []⟩ :: p.levels⟩

/-- Takes a comma: it starts a new branch in a group, and stands for itself otherwise. -/
def comma (p : Progress) : Progress :=
  match p.levels with
  | [] => p.push (.literal ',')
  | l :: ls => ⟨[], ⟨l.before, p.current.reverse :: l.branches⟩ :: ls⟩

/-- Closes a group. -/
def closeGroup (p : Progress) : Except Error Progress :=
  match p.levels with
  | [] => .error .unopenedGroup
  | l :: ls => .ok ⟨.group (p.current.reverse :: l.branches).reverse :: l.before, ls⟩

/-- Replaces the last piece by `piece`, unless it already crosses directories at an end. -/
def replaceLast (p : Progress) (piece : Piece) : Progress :=
  match p.current with
  | .leadingDirs :: _ => p
  | .trailingDirs :: _ => p
  | _ :: others => ⟨piece :: others, p.levels⟩
  | [] => ⟨[piece], p.levels⟩

/-- Takes two stars behind the character `prev` and before `rest`; gives what is left of `rest`.
They cross directories if they stand between slashes or ends, and are two single stars otherwise. -/
def twoStars (p : Progress) (prev : Option Char) (rest : Text) : Progress × Text :=
  let single := (p.push .star).push .star
  if p.current.isEmpty then
    match rest with
    | [] => (p.push .leadingDirs, [])
    | c :: cs => if c = '/' then (p.push .leadingDirs, cs) else (single, rest)
  else if prev ≠ some '/' ∧ (¬ p.isNested ∨ prev ≠ some ',' ∧ prev ≠ some '\x7b') then
    (single, rest)
  else
    match rest with
    | [] => (p.replaceLast .trailingDirs, [])
    | c :: cs =>
      if p.isNested ∧ (c = ',' ∨ c = '\x7d') then (p.replaceLast .trailingDirs, rest)
      else if c = '/' then (p.replaceLast .innerDirs, cs)
      else (single, rest)

/-- The pieces of a pattern that was read to its end. -/
def finish (p : Progress) : Except Error (List Piece) :=
  if p.isNested then .error .unclosedGroup else .ok p.current.reverse

end Progress

theorem length_classBody {s : ClassState} {cs rest : Text} {ranges : List (Char × Char)}
    (h : classBody s cs = .ok (ranges, rest)) : rest.length < cs.length := by
  induction cs generalizing s with
  | nil => cases h
  | cons c cs ih =>
    rw [classBody] at h
    split at h
    · cases h; simp
    · split at h
      · cases h
      · exact Nat.lt_succ_of_lt (ih h)

theorem length_classHead (cs : Text) : (classHead cs).2.length ≤ cs.length := by
  rw [classHead.eq_def]
  split <;> simp

theorem length_twoStars (p : Progress) (prev : Option Char) (rest : Text) :
    (p.twoStars prev rest).2.length ≤ rest.length := by
  simp only [Progress.twoStars]
  repeat' split
  all_goals simp

/-- Reads the rest of a pattern behind the character `prev`. -/
def parseFrom (p : Progress) (prev : Option Char) (cs : Text) : Except Error Progress :=
  match cs with
  | [] => .ok p
  | c :: rest =>
    if c = '?' then parseFrom (p.push .any) (some c) rest
    else if c = '*' then
      if rest.head? = some '*' then
        let behind := rest.drop 1
        let next := p.twoStars prev behind
        parseFrom next.1 (if next.2.length < behind.length then some '/' else some '*') next.2
      else parseFrom (p.push .star) (some c) rest
    else if c = '[' then
      match _h : classBody .start (classHead rest).2 with
      | .error e => .error e
      | .ok (ranges, behind) =>
        parseFrom (p.push (.oneOf (classHead rest).1 ranges)) (some ']') behind
    else if c = '\x7b' then parseFrom p.openGroup (some c) rest
    else if c = '\x7d' then
      match p.closeGroup with
      | .error e => .error e
      | .ok p => parseFrom p (some c) rest
    else if c = ',' then parseFrom p.comma (some c) rest
    else if c = '\\' then
      match rest with
      | [] => .error .danglingEscape
      | d :: behind => parseFrom (p.push (.literal d)) (some d) behind
    else parseFrom (p.push (.literal c)) (some c) rest
termination_by cs.length
decreasing_by
  · simp
  · have := length_twoStars p prev (rest.drop 1)
    simp only [List.length_drop, List.length_cons] at this ⊢
    omega
  · simp
  · have h₁ := length_classBody _h
    have h₂ := length_classHead rest
    simp only [List.length_cons]
    omega
  · simp
  · simp
  · simp
  · simp only [List.length_cons]
    omega
  · simp

/-- The pieces of a pattern. -/
def parse (pattern : Text) : Except Error (List Piece) := do
  let p ← parseFrom .start none pattern
  p.finish

end LocaleStrings.Glob
