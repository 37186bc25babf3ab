import LocaleStrings.Glob.Expression
import Mathlib.Computability.Language

/-!
# Marks and expressions

A path is matched by moving marks over it, piece by piece, while the same pieces are written as an
expression. Both are about the same set of paths.

* `Expression.language`: the bytes that an expression stands for;
* `Marks.Shows`: marks that are set exactly behind the beginnings of a path in a given language;
* `shows_move`, `shows_moveAll`, `shows_moveAny`: moving the marks over pieces appends the language
  of their expression;
* **`isMatch_iff_mem_language`**: pieces match a path exactly if their expression stands for its
  bytes.
-/

namespace LocaleStrings.Glob

open scoped Computability

/-! ## Languages of expressions -/

/-- The single bytes that pass a test. -/
def oneByte (test : UInt8 → Bool) : Language UInt8 := {bytes | ∃ b, test b = true ∧ bytes = [b]}

theorem mem_kstar_oneByte {test : UInt8 → Bool} {bytes : List UInt8} :
    bytes ∈ (oneByte test)∗ ↔ ∀ b ∈ bytes, test b = true := by
  constructor
  · rintro ⟨parts, rfl, hparts⟩ b hb
    obtain ⟨part, hpart, hb⟩ := List.mem_flatten.mp hb
    obtain ⟨c, hc, rfl⟩ := hparts part hpart
    rwa [List.mem_singleton.mp hb]
  · intro h
    refine ⟨bytes.map fun b => [b], (List.flatMap_singleton' bytes).symm, fun part hpart => ?_⟩
    obtain ⟨b, hb, rfl⟩ := List.mem_map.mp hpart
    exact ⟨b, h b hb, rfl⟩

namespace Expression

mutual

/-- The bytes that an expression stands for. -/
def language : Expression → Language UInt8
  | .byte b => oneByte (· == b)
  | .anyByte => oneByte fun _ => true
  | .oneOf negated ranges => oneByte (inClass negated ranges)
  | .optional part => 1 + part.language
  | .repeated part => part.language∗
  | .sequence parts => languageOfParts parts
  | .choice branches => languageOfBranches branches

/-- The bytes that parts stand for one behind another. -/
def languageOfParts : List Expression → Language UInt8
  | [] => 1
  | e :: es => e.language * languageOfParts es

/-- The bytes that one of several branches stands for. -/
def languageOfBranches : List Expression → Language UInt8
  | [] => 0
  | e :: es => e.language + languageOfBranches es

end

theorem languageOfParts_append (es es' : List Expression) :
    languageOfParts (es ++ es') = languageOfParts es * languageOfParts es' := by
  induction es with
  | nil => rw [List.nil_append, languageOfParts, one_mul]
  | cons e es ih => rw [List.cons_append, languageOfParts, languageOfParts, ih, mul_assoc]

@[simp] theorem languageOfParts_singleton (e : Expression) : languageOfParts [e] = e.language := by
  rw [languageOfParts, languageOfParts, mul_one]

/-- Given bytes stand for themselves. -/
theorem mem_languageOfParts_bytes {bytes : List UInt8} :
    ∀ {path : List UInt8}, path ∈ languageOfParts (bytes.map .byte) ↔ path = bytes := by
  induction bytes with
  | nil => exact Language.mem_one _
  | cons b bytes ih =>
    intro path
    rw [List.map_cons, languageOfParts, Language.mem_mul]
    constructor
    · rintro ⟨_, ⟨c, hc, rfl⟩, rest, hrest, rfl⟩
      rw [beq_iff_eq.mp hc, ih.mp hrest, List.singleton_append]
    · rintro rfl
      exact ⟨[b], ⟨b, beq_self_eq_true b, rfl⟩, bytes, ih.mpr rfl, rfl⟩

/-! ## Parts that pieces contribute -/

mutual

theorem ofPiece_eq_nil_iff : ∀ p : Piece, ofPiece p = [] ↔ p.isVoid = true
  | .literal c => by
    have hpos := c.utf8Size_pos
    have hlength := String.length_utf8EncodeChar c
    rw [ofPiece, List.map_eq_nil_iff, ← List.length_eq_zero_iff, hlength, Piece.isVoid]
    exact iff_of_false (by omega) nofun
  | .any | .star | .leadingDirs | .trailingDirs | .innerDirs | .oneOf _ _ => by
    rw [ofPiece, Piece.isVoid]
    exact iff_of_false nofun nofun
  | .group branches => by
    rw [ofPiece, Piece.isVoid, ← ofBranches_eq_nil_iff branches]
    cases ofBranches branches with
    | nil => simp
    | cons b bs => simp

theorem partsOf_eq_nil_iff : ∀ ps : List Piece, partsOf ps = [] ↔ Glob.isVoid ps = true
  | [] => by rw [partsOf, Glob.isVoid]; simp
  | p :: ps => by
    rw [partsOf, Glob.isVoid, List.append_eq_nil_iff, Bool.and_eq_true, ofPiece_eq_nil_iff p,
      partsOf_eq_nil_iff ps]

theorem ofBranches_eq_nil_iff : ∀ bs : List (List Piece), ofBranches bs = [] ↔ allVoid bs = true
  | [] => by rw [ofBranches, allVoid]; simp
  | b :: bs => by
    rw [ofBranches, allVoid, Bool.and_eq_true, ← partsOf_eq_nil_iff b, ← ofBranches_eq_nil_iff bs]
    cases partsOf b with
    | nil => simp
    | cons e es => simp

end

/-! ## Languages of pieces -/

theorem language_inside : inside.language = oneByte (· != slash) := by
  have htest : inClass true [(slash, slash)] = (· != slash) := by
    funext b
    grind [inClass]
  rw [inside, language, htest]

theorem languageOfParts_leadingDirs :
    languageOfParts (ofPiece .leadingDirs) = 1 + anything.language * (byte slash).language := by
  -- a single slash also stands behind no bytes at all
  have hslash : (byte slash).language ≤ anything.language * (byte slash).language := by
    calc (byte slash).language
      _ = 1 * (byte slash).language := (one_mul _).symm
      _ ≤ anything.language * (byte slash).language := mul_le_mul_left one_le_kstar _
  simp only [ofPiece, languageOfParts_singleton, language, languageOfParts, languageOfBranches,
    mul_one, add_zero, add_assoc]
  exact congrArg (1 + ·) ((Language.le_iff _ _).mp hslash)

theorem languageOfParts_innerDirs :
    languageOfParts (ofPiece .innerDirs) = (byte slash).language
      + (byte slash).language * (anything.language * (byte slash).language) := by
  simp only [ofPiece, languageOfParts_singleton, language, languageOfParts, languageOfBranches,
    mul_one, add_zero]

theorem languageOfParts_group (branches : List (List Piece)) :
    languageOfParts (ofPiece (.group branches)) =
      if allVoid branches then 1 else languageOfBranches (ofBranches branches) := by
  rw [ofPiece]
  split_ifs with hvoid
  · rw [(ofBranches_eq_nil_iff branches).mpr hvoid, languageOfParts]
  · cases hbranches : ofBranches branches with
    | nil => exact absurd ((ofBranches_eq_nil_iff branches).mp hbranches) hvoid
    | cons e es => rw [languageOfParts_singleton, language]

theorem languageOfBranches_cons (b : List Piece) (bs : List (List Piece)) :
    languageOfBranches (ofBranches (b :: bs)) =
      if Glob.isVoid b then languageOfBranches (ofBranches bs)
      else languageOfParts (partsOf b) + languageOfBranches (ofBranches bs) := by
  rw [ofBranches]
  split_ifs with hvoid
  · rw [(partsOf_eq_nil_iff b).mpr hvoid]
  · cases hparts : partsOf b with
    | nil => exact absurd ((partsOf_eq_nil_iff b).mp hparts) hvoid
    | cons e es => rw [languageOfBranches, language]

end Expression

/-! ## Marks that show a language -/

theorem append_mem_mul_oneByte {L : Language UInt8} {test : UInt8 → Bool} {before : List UInt8}
    {b : UInt8} : before ++ [b] ∈ L * oneByte test ↔ before ∈ L ∧ test b = true := by
  constructor
  · rintro ⟨front, hfront, _, ⟨c, hc, rfl⟩, happend⟩
    obtain ⟨rfl, hcb⟩ := List.append_inj' happend rfl
    obtain rfl := List.singleton_inj.mp hcb
    exact ⟨hfront, hc⟩
  · rintro ⟨hbefore, hb⟩
    exact Language.append_mem_mul hbefore ⟨b, hb, rfl⟩

theorem nil_notMem_mul_oneByte {L : Language UInt8} {test : UInt8 → Bool} :
    [] ∉ L * oneByte test := by
  rintro ⟨front, -, _, ⟨c, -, rfl⟩, happend⟩
  simp at happend

/-- Repetitions behind a part are none, or there is a last one. -/
theorem mem_mul_kstar_iff {L M : Language UInt8} {bytes : List UInt8} :
    bytes ∈ L * M∗ ↔ bytes ∈ L * M∗ * M ∨ bytes ∈ L := by
  have hunfold : L * M∗ = L * M∗ * M + L := by
    calc L * M∗
      _ = L * (1 + M∗ * M) := by rw [Language.one_add_kstar_mul_self_eq_kstar]
      _ = L * M∗ * M + L := by rw [mul_add, mul_one, mul_assoc, add_comm]
  rw [← Language.mem_add, ← hunfold]

namespace Marks

/-- The marks from the start of `rest` on, with `before` in front of it, are set exactly behind the
beginnings of the path that are in `L`. -/
inductive ShowsFrom (L : Language UInt8) : List UInt8 → List UInt8 → Marks → Prop
  | nil {before : List UInt8} {mark : Bool} (hmark : mark = true ↔ before ∈ L) :
    ShowsFrom L before [] [mark]
  | cons {before rest : List UInt8} {b : UInt8} {mark : Bool} {marks : Marks}
    (hmark : mark = true ↔ before ∈ L) (hmarks : ShowsFrom L (before ++ [b]) rest marks) :
    ShowsFrom L before (b :: rest) (mark :: marks)

/-- The marks are set exactly behind the beginnings of the path that are in `L`. -/
def Shows (L : Language UInt8) (path : List UInt8) (marks : Marks) : Prop :=
  ShowsFrom L [] path marks

variable {L M : Language UInt8} {path before rest : List UInt8} {marks left right : Marks}
  {test : UInt8 → Bool}

theorem showsFrom_map_false (h : before ≠ []) (rest : List UInt8) :
    ShowsFrom 1 before rest (false :: rest.map fun _ => false) := by
  have hmark : false = true ↔ before ∈ (1 : Language UInt8) := iff_of_false nofun h
  induction rest generalizing before with
  | nil => exact .nil hmark
  | cons b rest ih =>
    have hnext : before ++ [b] ≠ [] := List.append_ne_nil_of_right_ne_nil _ (List.cons_ne_nil _ _)
    exact .cons hmark (ih hnext (iff_of_false nofun hnext))

theorem shows_start (path : List UInt8) : Shows 1 path (start path) := by
  cases path with
  | nil => exact .nil (by simp)
  | cons b rest => exact .cons (by simp) (showsFrom_map_false (by simp) rest)

theorem ShowsFrom.clear (h : ShowsFrom L before rest marks) :
    ShowsFrom 0 before rest (clear marks) := by
  induction h with
  | nil hmark => exact .nil (by simp)
  | cons hmark hmarks ih => exact .cons (by simp) ih

theorem ShowsFrom.union (hleft : ShowsFrom L before rest left)
    (hright : ShowsFrom M before rest right) :
    ShowsFrom (L + M) before rest (union left right) := by
  induction hleft generalizing right with
  | nil hmark =>
    cases hright with
    | nil hmark' => exact .nil (by rw [Bool.or_eq_true, hmark, hmark', Language.mem_add])
  | cons hmark hmarks ih =>
    cases hright with
    | cons hmark' hmarks' =>
      exact .cons (by rw [Bool.or_eq_true, hmark, hmark', Language.mem_add]) (ih hmarks')

/-- One byte further each mark stands behind one more byte that passes the test. -/
theorem ShowsFrom.overByte (h : ShowsFrom L before rest marks) {first : Bool}
    (hfirst : first = true ↔ before ∈ L * oneByte test) :
    ShowsFrom (L * oneByte test) before rest
      (first :: List.zipWith (fun mark b => mark && test b) marks rest) := by
  induction h generalizing first with
  | nil hmark => exact .nil hfirst
  | cons hmark hmarks ih =>
    refine .cons hfirst (ih ?_)
    rw [Bool.and_eq_true, hmark, append_mem_mul_oneByte]

theorem Shows.overByte (h : Shows L path marks) :
    Shows (L * oneByte test) path (overByte test path marks) :=
  ShowsFrom.overByte h (iff_of_false nofun nil_notMem_mul_oneByte)

/-- What is carried along has come over one byte at least, and a mark may add to it. -/
theorem ShowsFrom.overRunFrom (h : ShowsFrom L before rest marks) {carried : Bool}
    (hcarried : carried = true ↔ before ∈ L * (oneByte test)∗ * oneByte test) :
    ShowsFrom (L * (oneByte test)∗) before rest (overRunFrom test carried rest marks) := by
  induction h generalizing carried with
  | nil hmark =>
    apply ShowsFrom.nil
    rw [Bool.or_eq_true, hcarried, hmark, mem_mul_kstar_iff]
  | @cons before rest b mark marks hmark hmarks ih =>
    have hhere : (carried || mark) = true ↔ before ∈ L * (oneByte test)∗ := by
      rw [Bool.or_eq_true, hcarried, hmark, mem_mul_kstar_iff]
    refine .cons hhere (ih ?_)
    rw [Bool.and_eq_true, hhere, append_mem_mul_oneByte]

theorem Shows.overRun (h : Shows L path marks) :
    Shows (L * (oneByte test)∗) path (overRun test path marks) :=
  ShowsFrom.overRunFrom h (iff_of_false nofun nil_notMem_mul_oneByte)

theorem ShowsFrom.atEnd (h : ShowsFrom L before rest marks) :
    marks.atEnd = true ↔ before ++ rest ∈ L := by
  unfold Marks.atEnd
  induction h with
  | nil hmark => simpa using hmark
  | cons hmark hmarks ih =>
    rw [List.append_cons, ← ih]
    cases hmarks <;> simp

end Marks

/-! ## Moving over pieces -/

open Expression Marks

section Moves

variable {path : List UInt8} {L : Language UInt8} {marks : Marks}

theorem Marks.Shows.overBytes (h : Shows L path marks) (bytes : List UInt8) :
    Shows (L * languageOfParts (bytes.map .byte)) path (overBytes bytes path marks) := by
  induction bytes generalizing L marks with
  | nil => rwa [List.map_nil, languageOfParts, mul_one]
  | cons b bytes ih =>
    have hbyte : Shows (L * (byte b).language) path (Marks.overByte (· == b) path marks) :=
      h.overByte
    have hrest := ih hbyte
    rwa [mul_assoc] at hrest

theorem Marks.Shows.overSlash (h : Shows L path marks) :
    Shows (L * (byte slash).language) path (overSlash path marks) :=
  h.overByte

theorem Marks.Shows.overAnything (h : Shows L path marks) :
    Shows (L * anything.language) path (overAnything path marks) :=
  h.overRun

end Moves

mutual

/-- Moving over a piece appends the language of its parts. -/
theorem shows_move {path : List UInt8} {L : Language UInt8} {marks : Marks}
    (h : Shows L path marks) :
    ∀ p : Piece, Shows (L * languageOfParts (ofPiece p)) path (p.move path marks)
  | .literal c => h.overBytes (String.utf8EncodeChar c)
  | .any => by
    rw [ofPiece, languageOfParts_singleton, language_inside]
    exact h.overByte
  | .star => by
    rw [ofPiece, languageOfParts_singleton, language, language_inside]
    exact h.overRun
  | .leadingDirs => by
    rw [languageOfParts_leadingDirs, mul_add, mul_one, ← mul_assoc]
    exact h.union h.overAnything.overSlash
  | .trailingDirs => by
    rw [ofPiece, languageOfParts, languageOfParts_singleton, ← mul_assoc]
    exact h.overSlash.overAnything
  | .innerDirs => by
    rw [languageOfParts_innerDirs, mul_add, ← mul_assoc, ← mul_assoc]
    exact h.overSlash.union h.overSlash.overAnything.overSlash
  | .oneOf negated ranges => by
    rw [ofPiece, languageOfParts_singleton]
    exact h.overByte
  | .group branches => by
    rw [languageOfParts_group, Piece.move]
    split_ifs
    · rwa [mul_one]
    · exact shows_moveAny h branches

/-- Moving over pieces appends the language of the parts of all of them. -/
theorem shows_moveAll {path : List UInt8} {L : Language UInt8} {marks : Marks}
    (h : Shows L path marks) :
    ∀ ps : List Piece, Shows (L * languageOfParts (partsOf ps)) path (moveAll path marks ps)
  | [] => by
    rwa [partsOf, languageOfParts, mul_one]
  | p :: ps => by
    rw [partsOf, languageOfParts_append, ← mul_assoc]
    exact shows_moveAll (shows_move h p) ps

/-- Moving over branches appends the language of any of them that has parts. -/
theorem shows_moveAny {path : List UInt8} {L : Language UInt8} {marks : Marks}
    (h : Shows L path marks) :
    ∀ bs : List (List Piece),
      Shows (L * languageOfBranches (ofBranches bs)) path (moveAny path marks bs)
  | [] => by
    rw [ofBranches, languageOfBranches, mul_zero]
    exact h.clear
  | b :: bs => by
    rw [languageOfBranches_cons, moveAny]
    split_ifs
    · exact shows_moveAny h bs
    · rw [mul_add]
      exact (shows_moveAll h b).union (shows_moveAny h bs)

end

theorem matchesBytes_iff {pieces : List Piece} {path : List UInt8} :
    matchesBytes pieces path = true ↔ path ∈ languageOfParts (partsOf pieces) := by
  have hshows := shows_moveAll (shows_start path) pieces
  rw [one_mul] at hshows
  exact hshows.atEnd

theorem mem_language_anything (bytes : List UInt8) : bytes ∈ anything.language :=
  mem_kstar_oneByte.mpr fun _ _ => rfl

/-- **Pieces match a path exactly if their expression stands for its bytes.** -/
theorem isMatch_iff_mem_language {pieces : List Piece} {path : Text} :
    isMatch pieces path = true ↔ path.bytes ∈ languageOfParts (Expression.ofPieces pieces) := by
  rw [isMatch, Bool.or_eq_true, Expression.ofPieces]
  split_ifs with hall
  · rw [languageOfParts_singleton]
    exact iff_of_true (.inl hall) (mem_language_anything _)
  · rw [matchesBytes_iff]
    exact or_iff_right hall

end LocaleStrings.Glob
