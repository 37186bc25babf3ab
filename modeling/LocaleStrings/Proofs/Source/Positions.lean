import LocaleStrings.Proofs.Source.Offsets
import LocaleStrings.Source.Anchor

/-!
# Positions in parts of a text

* `Position.advance`: the position reached from `p` by a text that ends at `q` on its own;
* `Position.behind_append`: the position behind two texts is that of the first, advanced by that
  of the second;
* `Position.behind_le`: lines and columns are bounded by the size of the text;
* `offsetOf?_behind`: the position behind a text leads back to its size;
* **`Anchor.compose_locate`**: a position of a region, composed with the anchor of the region, is
  the position of the same place in the whole text.
-/

namespace LocaleStrings

namespace Position

/-- The position reached from `p` by a text that ends at `q` when read on its own. -/
def advance (p q : Position) : Position :=
  if q.line = 1 then ⟨p.line, p.column + q.column⟩ else ⟨p.line + q.line - 1, q.column⟩

theorem one_le_line_behind (t : Text) : 1 ≤ (behind t).line := by
  have h : ∀ (t : Text) (p : Position), p.line ≤ (t.foldl next p).line := by
    intro t
    induction t with
    | nil => exact fun p => Nat.le_refl _
    | cons c cs ih =>
      intro p
      have hc : p.line ≤ (p.next c).line := by
        unfold next
        split_ifs <;> simp
      exact Nat.le_trans hc (ih _)
  exact h t first

theorem behind_concat (t : Text) (c : Char) : behind (t ++ [c]) = (behind t).next c := by
  rw [behind, List.foldl_append]
  rfl

/-- **Advancing by one more character.** -/
theorem advance_next (p q : Position) (hq : 1 ≤ q.line) (c : Char) :
    p.advance (q.next c) = (p.advance q).next c := by
  unfold advance next
  by_cases hc : c = '\n'
  · rw [if_pos hc, if_pos hc, if_neg (by simp only; omega)]
    split_ifs with h
    · simp only [h, Nat.reduceAdd, Nat.add_succ_sub_one]
    · simp only [mk.injEq, and_true]
      omega
  · rw [if_neg hc, if_neg hc]
    split_ifs with h
    · simp only [mk.injEq, true_and]
      omega
    · rfl

theorem foldl_next (p : Position) (t : Text) : t.foldl next p = p.advance (behind t) := by
  -- the text is taken apart at its end, where `behind` makes its last step
  induction h : t.length generalizing t with
  | zero =>
    obtain rfl := List.length_eq_zero_iff.mp h
    rfl
  | succ n ih =>
    obtain ⟨s, c, rfl⟩ : ∃ s c, t = s ++ [c] := by
      have hne : t ≠ [] := by rintro rfl; simp at h
      exact ⟨_, _, (List.dropLast_concat_getLast hne).symm⟩
    have hs : s.length = n := by simpa using h
    rw [List.foldl_append, ih s hs, behind_concat, advance_next _ _ (one_le_line_behind s)]
    rfl

theorem behind_append (a b : Text) : behind (a ++ b) = (behind a).advance (behind b) := by
  rw [← foldl_next, behind, List.foldl_append]
  rfl

theorem behind_le_length (t : Text) : (behind t).line + (behind t).column ≤ t.length + 1 := by
  have h : ∀ (t : Text) (p : Position),
      (t.foldl next p).line + (t.foldl next p).column ≤ t.length + (p.line + p.column) := by
    intro t
    induction t with
    | nil => intro p; simp
    | cons c cs ih =>
      intro p
      have hc : (p.next c).line + (p.next c).column ≤ p.line + p.column + 1 := by
        unfold next
        split_ifs <;> simp only <;> omega
      have := ih (p.next c)
      simp only [List.foldl_cons, List.length_cons]
      omega
  exact h t first

theorem behind_le (t : Text) : (behind t).line + (behind t).column ≤ Text.size t + 1 :=
  Nat.le_trans (behind_le_length t) (Nat.succ_le_succ (Text.length_le_size t))

theorem truncate_behind {t : Text} (h : Text.size t + 1 < Word.limit) :
    (behind t).truncate = behind t := by
  have := behind_le t
  rw [truncate_eq, Word.truncate_of_lt (by omega), Word.truncate_of_lt (by omega)]

end Position

/-! ## From positions to offsets -/

theorem afterLines_succ (n : Nat) (t : Text) :
    afterLines (n + 1) t = (afterLines n t).bind (afterLines 1) := by
  fun_induction afterLines n t with
  | case1 t => rfl
  | case2 n => simp [afterLines]
  | case3 n cs ih => rw [afterLines, if_pos rfl, ih]
  | case4 n c cs hc ih => rw [afterLines, if_neg hc, ih]

theorem afterLines_one_append {t : Text} (h : '\n' ∉ t) (r : Text) :
    afterLines 1 (t ++ '\n' :: r) = some r := by
  induction t with
  | nil => simp [afterLines]
  | cons c cs ih =>
    obtain ⟨hc, hcs⟩ := not_or.mp (mt List.mem_cons.mpr h)
    rw [List.cons_append, afterLines, if_neg (Ne.symm hc), ih hcs]

/-- The last line of a text: what stands behind its last newline is as long as the column of its
end, and is what `afterLines` leaves. -/
theorem exists_lastLine (t : Text) : ∃ before line, t = before ++ line ∧ '\n' ∉ line ∧
    line.length = (Position.behind t).column ∧
    ∀ r, afterLines ((Position.behind t).line - 1) (t ++ r) = some (line ++ r) := by
  induction h : t.length generalizing t with
  | zero =>
    obtain rfl := List.length_eq_zero_iff.mp h
    exact ⟨[], [], rfl, List.not_mem_nil, rfl, fun r => by
      simp [Position.behind, Position.first, afterLines]⟩
  | succ n ih =>
    obtain ⟨s, c, rfl⟩ : ∃ s c, t = s ++ [c] := by
      have hne : t ≠ [] := by rintro rfl; simp at h
      exact ⟨_, _, (List.dropLast_concat_getLast hne).symm⟩
    obtain ⟨before, line, hs, hline, hcol, hrest⟩ := ih s (by simpa using h)
    have hpos := Position.one_le_line_behind s
    rw [Position.behind_concat]
    unfold Position.next
    split_ifs with hc
    · -- a newline starts an empty line
      refine ⟨s ++ [c], [], by simp, List.not_mem_nil, rfl, fun r => ?_⟩
      obtain ⟨k, hk⟩ : ∃ k, (Position.behind s).line = k + 1 := ⟨_, (Nat.sub_add_cancel hpos).symm⟩
      rw [hk] at hrest ⊢
      rw [Nat.add_sub_cancel] at hrest ⊢
      rw [afterLines_succ, List.append_assoc, hrest, hc]
      exact afterLines_one_append hline r
    · refine ⟨before, line ++ [c], by rw [hs, List.append_assoc], ?_, by simp [hcol], fun r => ?_⟩
      · simp [hline, Ne.symm hc]
      · rw [List.append_assoc, hrest, List.append_assoc]

theorem bne_newline_of_not_mem {t : List Char} (h : '\n' ∉ t) : ∀ c ∈ t, (c != '\n') = true := by
  intro c hc
  rw [bne_iff_ne]
  rintro rfl
  exact h hc

theorem firstLine_append {t : Text} (h : '\n' ∉ t) (r : Text) :
    firstLine (t ++ r) = t ++ firstLine r :=
  List.takeWhile_append_of_pos (bne_newline_of_not_mem h)

/-- **The position behind a text leads back to its size.** -/
theorem offsetOf?_behind (a b : Text) :
    offsetOf? (a ++ b) (Position.behind a) = some (Text.size a) := by
  obtain ⟨before, line, ha, hline, hcol, hrest⟩ := exists_lastLine a
  obtain ⟨k, hk⟩ : ∃ k, (Position.behind a).line = k + 1 :=
    ⟨_, (Nat.sub_add_cancel (Position.one_le_line_behind a)).symm⟩
  have hafter : afterLines k (a ++ b) = some (line ++ b) := by
    have := hrest b
    rwa [hk, Nat.add_sub_cancel] at this
  have htake : (firstLine (line ++ b)).take (Position.behind a).column = line := by
    rw [firstLine_append hline, ← hcol, List.take_left]
  unfold offsetOf?
  rw [hk]
  simp only [hafter, Option.map_some, htake, Option.some.injEq]
  rw [ha]
  simp only [Text.size_append]
  omega

/-! ## Places in a region -/

theorem locate_size_append {a b : Text} (h : Text.size (a ++ b) + 1 < Word.limit) :
    locate (a ++ b) (Text.size a) = Position.behind a := by
  rw [Text.size_append] at h
  rw [locate_eq, Text.within_size_append, Position.truncate_behind (by omega)]

/-- Both ends of a part lead back to their offsets. -/
theorem offsetOf?_locate_of_partAt {text part : Text} {o : Nat} (h : Text.PartAt text o part)
    (hsize : Text.size text + 1 < Word.limit) :
    offsetOf? text (locate text o) = some o ∧
      offsetOf? text (locate text (o + Text.size part)) = some (o + Text.size part) := by
  obtain ⟨before, after, rfl, rfl⟩ := h
  constructor
  · rw [List.append_assoc] at hsize ⊢
    rw [locate_size_append hsize]
    exact offsetOf?_behind _ _
  · rw [← Text.size_append, locate_size_append hsize]
    exact offsetOf?_behind _ _

theorem Anchor.compose_of_lt {a : Anchor} {q : Position} (hq : 1 ≤ q.line)
    (hline : a.position.line + q.line < Word.limit)
    (hcol : a.position.column + q.column < Word.limit) :
    a.compose q = .ok (a.position.advance q) := by
  unfold Anchor.compose Position.advance
  split_ifs with h
  · rw [Word.add_of_lt hcol]
    rfl
  · rw [Word.add_of_lt hline]
    simp only [bind, Except.bind]
    rw [Word.sub_of_le (by omega)]
    rfl

theorem locate_min_size (text : Text) (k : Nat) :
    locate text (min k (Text.size text)) = locate text k := by
  rw [locate_eq, locate_eq, Text.within_min_size]

/-- **Composition places a region in the whole text.** A place of the region, wherever it is, has
the composed position in the whole text; an offset past the region counts as its end. -/
theorem Anchor.compose_locate {source region : Text} {o : Nat} (h : Text.PartAt source o region)
    (hsize : Text.size source + 2 < Word.limit) (k : Nat) :
    (Anchor.ofOffset source o).compose (locate region k)
      = .ok (locate source (o + min k (Text.size region))) := by
  obtain ⟨before, after, rfl, rfl⟩ := h
  simp only [Text.size_append] at hsize
  obtain ⟨rest, hrest⟩ := Text.exists_eq_within_append k region
  have hpart : Text.size (Text.within k region) ≤ Text.size region := by
    have := congrArg Text.size hrest
    rw [Text.size_append] at this
    omega
  have hregion : locate region k = Position.behind (Text.within k region) :=
    Position.truncate_behind (by omega)
  have hanchor : (Anchor.ofOffset (before ++ region ++ after) (Text.size before)).position
      = Position.behind before := by
    rw [List.append_assoc]
    exact locate_size_append (by simp only [Text.size_append]; omega)
  have hwhole : locate (before ++ region ++ after) (Text.size before + min k (Text.size region))
      = Position.behind (before ++ Text.within k region) := by
    rw [locate_eq, List.append_assoc, Text.within_append,
      Text.within_append_of_le (Nat.min_le_right _ _), Text.within_min_size]
    exact Position.truncate_behind (by simp only [Text.size_append]; omega)
  have h₁ := Position.behind_le before
  have h₂ := Position.behind_le (Text.within k region)
  rw [hregion, hwhole, Position.behind_append, ← hanchor]
  refine Anchor.compose_of_lt (Position.one_le_line_behind _) ?_ ?_
  · rw [hanchor]
    omega
  · rw [hanchor]
    omega

theorem Anchor.ofOffset_zero (text : Text) : Anchor.ofOffset text 0 = Anchor.origin := by
  rw [Anchor.ofOffset_eq, locate_eq, Text.within_zero]
  rfl

theorem Anchor.compose_zero_locate {text : Text} (hsize : Text.size text + 2 < Word.limit)
    (k : Nat) : (Anchor.ofOffset text 0).compose (locate text k) = .ok (locate text k) := by
  have h := Anchor.compose_locate (Text.PartAt.refl text) hsize k
  rwa [Nat.zero_add, locate_min_size] at h

end LocaleStrings
