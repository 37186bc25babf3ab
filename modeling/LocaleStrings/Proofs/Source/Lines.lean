import LocaleStrings.Proofs.Source.Boundaries

/-!
# Lines and their positions

* `Text.lines`, `Text.lineLength`: the lines of a text, and how many characters each has;
* `afterLines_eq_none_iff`: a text has one line more than newlines;
* `exists_of_afterLines`: what follows `n` newlines starts with the line behind them;
* `exists_of_offsetOf?`: the offset of a position cuts the text at this position, with the column
  brought back to the end of its line;
* **`offsetOf?_lands`**: which positions have an offset, and where it is.
-/

namespace LocaleStrings

/-! ## The lines of a text -/

namespace Text

/-- The lines of a text, without the newlines between them. -/
def lines (t : Text) : List Text := t.splitOn '\n'

/-- The number of characters of a line, where lines are counted from one. -/
def lineLength (t : Text) (line : Nat) : Nat := (t.lines[line - 1]?.getD []).length

theorem lines_newline (cs : Text) : lines ('\n' :: cs) = [] :: lines cs := by
  rw [lines, List.splitOn_cons_eq_if_modifyHead, if_pos (by simp)]
  rfl

theorem lines_cons {c : Char} (hc : c ≠ '\n') (cs : Text) :
    lines (c :: cs) = (lines cs).modifyHead (c :: ·) := by
  rw [lines, List.splitOn_cons_eq_if_modifyHead, if_neg (by simpa using hc)]
  rfl

theorem lines_zero (t : Text) : t.lines[0]? = some (firstLine t) := by
  induction t with
  | nil => rfl
  | cons c cs ih =>
    by_cases hc : c = '\n'
    · rw [hc, lines_newline]
      rfl
    · have hfirst : firstLine (c :: cs) = c :: firstLine cs :=
        firstLine_append (t := [c]) (by simpa using Ne.symm hc) cs
      rw [lines_cons hc, List.getElem?_modifyHead_zero, ih, hfirst]
      rfl

end Text

theorem newline_not_mem_firstLine (t : Text) : '\n' ∉ firstLine t := by
  intro h
  have hall := List.all_eq_true.mp (List.all_takeWhile (p := (· != '\n')) (l := t)) _ h
  simp at hall

namespace Position

theorem line_behind (t : Text) : (behind t).line = t.count '\n' + 1 := by
  have h : ∀ (t : Text) (p : Position), (t.foldl next p).line = t.count '\n' + p.line := by
    intro t
    induction t with
    | nil => exact fun p => (Nat.zero_add _).symm
    | cons c cs ih =>
      intro p
      rw [List.foldl_cons, ih, next]
      split_ifs with hc
      · rw [hc, List.count_cons_self, Nat.add_assoc, Nat.add_comm 1]
      · rw [List.count_cons_of_ne hc]
  exact h t first

theorem behind_of_newline_not_mem {l : Text} (h : '\n' ∉ l) : behind l = ⟨1, l.length⟩ := by
  have hfold : ∀ l : Text, '\n' ∉ l → ∀ p : Position,
      l.foldl next p = ⟨p.line, l.length + p.column⟩ := by
    intro l
    induction l with
    | nil => exact fun _ p => by rw [List.length_nil, Nat.zero_add]; rfl
    | cons c cs ih =>
      intro hl p
      obtain ⟨hc, hcs⟩ : c ≠ '\n' ∧ '\n' ∉ cs := by simpa [eq_comm] using hl
      rw [List.foldl_cons, ih hcs, next, if_neg hc, List.length_cons, Nat.add_assoc, Nat.add_comm 1]
  exact hfold l h first

/-- The start of a later line does not depend on where the text before it started. -/
theorem advance_lineStart {p : Position} {n : Nat} (h : n ≠ 0 ∨ p.column = 0) :
    p.advance ⟨n + 1, 0⟩ = ⟨p.line + n, 0⟩ := by
  cases n with
  | zero =>
    have hcolumn : p.column = 0 := h.resolve_left fun hne => hne rfl
    rw [advance, if_pos rfl, hcolumn]
    rfl
  | succ n =>
    rw [advance, if_neg (by simp only; omega)]
    rfl

end Position

/-! ## What follows some newlines -/

theorem afterLines_eq_none_iff (n : Nat) (t : Text) :
    afterLines n t = none ↔ t.count '\n' < n := by
  fun_induction afterLines n t with
  | case1 t => simp
  | case2 n => simp
  | case3 n cs ih => rw [ih, List.count_cons_self, Nat.succ_lt_succ_iff]
  | case4 n c cs hc ih => rw [ih, List.count_cons_of_ne hc]

/-- **What follows `n` newlines starts with the line behind them**, and the position there is the
first one of the line. -/
theorem exists_of_afterLines {n : Nat} {t rest : Text} (h : afterLines n t = some rest) :
    ∃ before, t = before ++ rest ∧ Position.behind before = ⟨n + 1, 0⟩ ∧
      t.lines[n]? = some (firstLine rest) := by
  fun_induction afterLines n t with
  | case1 t =>
    cases h
    exact ⟨[], rfl, rfl, Text.lines_zero rest⟩
  | case2 n => cases h
  | case3 n cs ih =>
    obtain ⟨before, rfl, hbehind, hline⟩ := ih h
    refine ⟨'\n' :: before, rfl, ?_, ?_⟩
    · rw [← List.singleton_append, Position.behind_append, hbehind,
        Position.advance_lineStart (.inr rfl)]
      show (⟨2 + n, 0⟩ : Position) = ⟨n + 1 + 1, 0⟩
      rw [Nat.add_comm]
    · rw [Text.lines_newline, List.getElem?_cons_succ, hline]
  | case4 n c cs hc ih =>
    obtain ⟨before, rfl, hbehind, hline⟩ := ih h
    refine ⟨c :: before, rfl, ?_, ?_⟩
    · rw [← List.singleton_append, Position.behind_append, hbehind,
        Position.advance_lineStart (.inl (Nat.succ_ne_zero n)),
        Position.behind_of_newline_not_mem (by simpa using Ne.symm hc), Nat.add_comm 1]
    · rw [Text.lines_cons hc, List.getElem?_modifyHead_succ, hline]

/-! ## The offset of a position -/

theorem offsetOf?_eq_none_iff (text : Text) (line column : Nat) :
    offsetOf? text ⟨line, column⟩ = none ↔ line = 0 ∨ 1 + text.count '\n' < line := by
  cases line with
  | zero => simp [offsetOf?]
  | succ n =>
    simp only [offsetOf?, Option.map_eq_none_iff, afterLines_eq_none_iff]
    omega

/-- **The offset of a position cuts the text there**: behind the columns before it on its line, or
behind the whole line. -/
theorem exists_of_offsetOf? {text : Text} {line column o : Nat}
    (h : offsetOf? text ⟨line, column⟩ = some o) :
    ∃ before after, text = before ++ after ∧ o = Text.size before ∧
      Position.behind before = ⟨line, min column (text.lineLength line)⟩ := by
  cases line with
  | zero => cases h
  | succ n =>
    obtain ⟨rest, hrest, ho⟩ := Option.map_eq_some_iff.mp h
    obtain ⟨lead, rfl, hlead, hline⟩ := exists_of_afterLines hrest
    have hno : '\n' ∉ (firstLine rest).take column := fun hmem =>
      newline_not_mem_firstLine rest (List.mem_of_mem_take hmem)
    have hsplit : rest = (firstLine rest).take column
        ++ ((firstLine rest).drop column ++ rest.dropWhile (· != '\n')) := by
      rw [← List.append_assoc, List.take_append_drop, firstLine, List.takeWhile_append_dropWhile]
    refine ⟨lead ++ (firstLine rest).take column,
      (firstLine rest).drop column ++ rest.dropWhile (· != '\n'), ?_, ?_, ?_⟩
    · rw [List.append_assoc, ← hsplit]
    · simp only [Text.size_append] at ho ⊢
      omega
    · rw [Position.behind_append, hlead, Position.behind_of_newline_not_mem hno, Position.advance,
        if_pos rfl, List.length_take, Text.lineLength, Nat.add_sub_cancel, hline]
      simp

/-- **A position has an offset exactly if the text has its line.** The offset is a character
boundary, and its position is the given one with the column cut at the end of the line. -/
theorem offsetOf?_lands {text : Text} (hsize : Text.size text < Word.limit - 2)
    (line column : Nat) :
    (offsetOf? text ⟨line, column⟩ = none ↔ line = 0 ∨ 1 + text.count '\n' < line) ∧
    (1 ≤ line → line ≤ 1 + text.count '\n' →
      ∃ o, offsetOf? text ⟨line, column⟩ = some o ∧ o ≤ Text.size text ∧ text.IsBoundary o ∧
        locate text o = ⟨line, min column (text.lineLength line)⟩) := by
  have hnone := offsetOf?_eq_none_iff text line column
  refine ⟨hnone, fun hpos hle => ?_⟩
  obtain ⟨o, ho⟩ : ∃ o, offsetOf? text ⟨line, column⟩ = some o := by
    refine Option.ne_none_iff_exists'.mp fun h => ?_
    have := hnone.mp h
    omega
  obtain ⟨before, after, rfl, rfl, hbehind⟩ := exists_of_offsetOf? ho
  have hboundary : (before ++ after).IsBoundary (Text.size before) :=
    Text.isBoundary_iff.mpr ⟨before, after, rfl, rfl⟩
  refine ⟨_, ho, hboundary.le_size, hboundary, ?_⟩
  rw [locate_size_append (by omega), hbehind]

/-- The first line of `accented` has one character, so column 9 of it is its end; there is no third
line. -/
theorem accented_lands :
    Text.size accented < Word.limit - 2 ∧
    (∃ o, offsetOf? accented ⟨1, 9⟩ = some o ∧ o ≤ Text.size accented ∧ accented.IsBoundary o ∧
      locate accented o = ⟨1, min 9 (accented.lineLength 1)⟩) ∧
    offsetOf? accented ⟨1, 9⟩ = some 2 ∧ locate accented 2 = ⟨1, 1⟩ ∧
    offsetOf? accented ⟨3, 0⟩ = none := by
  have hsize : Text.size accented < Word.limit - 2 := by decide +kernel
  obtain ⟨-, hline⟩ := offsetOf?_lands hsize 1 9
  obtain ⟨hnone, -⟩ := offsetOf?_lands hsize 3 0
  exact ⟨hsize, hline (by decide) (by decide +kernel), by decide +kernel, by decide +kernel,
    hnone.mpr (by decide +kernel)⟩

end LocaleStrings
