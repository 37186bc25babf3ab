import LocaleStrings.Proofs.Source.Positions

/-!
# The order of positions

Offsets and positions run in the same direction.

* `Text.exists_within_append`: what fits into fewer bytes is an initial part of what fits into
  more;
* `Position.le_advance`: reading on never leads back;
* **`locate_mono`**: a later offset has no earlier position;
* `offsetOf?_locate`: the position of an offset leads back to the last character boundary that is
  not behind it;
* **`locate_inside`**: an offset of a part has a position inside the part.
-/

namespace LocaleStrings

theorem Text.exists_within_append {a b : Nat} (h : a ≤ b) (t : Text) :
    ∃ rest, within b t = within a t ++ rest := by
  induction t generalizing a b with
  | nil => exact ⟨[], rfl⟩
  | cons c cs ih =>
    unfold within
    by_cases ha : c.utf8Size ≤ a
    · obtain ⟨rest, hrest⟩ := ih (show a - c.utf8Size ≤ b - c.utf8Size by omega)
      rw [if_pos ha, if_pos (Nat.le_trans ha h), hrest]
      exact ⟨rest, rfl⟩
    · rw [if_neg ha]
      exact ⟨_, rfl⟩

theorem Position.le_advance (p : Position) {q : Position} (hq : 1 ≤ q.line) : p ≤ p.advance q := by
  show Position.le p (p.advance q)
  unfold advance Position.le
  split_ifs with h
  · exact .inr ⟨rfl, Nat.le_add_right _ _⟩
  · exact .inl (by simp only; omega)

/-- Below the 32-bit limit no position is cut down. -/
theorem locate_eq_behind {text : Text} (hsize : Text.size text + 1 < Word.limit) (n : Nat) :
    locate text n = Position.behind (Text.within n text) := by
  obtain ⟨rest, hrest⟩ := Text.exists_eq_within_append n text
  have hle := congrArg Text.size hrest
  rw [Text.size_append] at hle
  exact Position.truncate_behind (by omega)

/-- **A later offset has no earlier position**, whether or not the offsets are in the text and on
character boundaries. -/
theorem locate_mono {text : Text} (hsize : Text.size text + 1 < Word.limit) {a b : Nat}
    (h : a ≤ b) : locate text a ≤ locate text b := by
  obtain ⟨rest, hrest⟩ := Text.exists_within_append h text
  rw [locate_eq_behind hsize, locate_eq_behind hsize, hrest, Position.behind_append]
  exact Position.le_advance _ (Position.one_le_line_behind rest)

/-! ## The boundary before an offset -/

theorem Text.size_within_le (n : Nat) (t : Text) : size (within n t) ≤ n := by
  induction t generalizing n with
  | nil => exact Nat.zero_le n
  | cons c cs ih =>
    unfold within
    split_ifs with hc
    · have := ih (n - c.utf8Size)
      simp only [size_cons]
      omega
    · exact Nat.zero_le n

theorem Text.splitAt?_size_within (n : Nat) (t : Text) :
    (splitAt? (size (within n t)) t).isSome = true := by
  obtain ⟨rest, hrest⟩ := exists_eq_within_append n t
  have hcut := splitAt?_size (within n t) rest
  rw [← hrest] at hcut
  rw [hcut]
  rfl

theorem locate_size_within (n : Nat) (text : Text) :
    locate text (Text.size (Text.within n text)) = locate text n := by
  obtain ⟨rest, hrest⟩ := Text.exists_eq_within_append n text
  have hwithin := Text.within_size_append (Text.within n text) rest
  rw [← hrest] at hwithin
  rw [locate_eq, locate_eq, hwithin]

theorem offsetOf?_locate {text : Text} (hsize : Text.size text + 1 < Word.limit) (n : Nat) :
    offsetOf? text (locate text n) = some (Text.size (Text.within n text)) := by
  obtain ⟨rest, hrest⟩ := Text.exists_eq_within_append n text
  have hback := offsetOf?_behind (Text.within n text) rest
  rw [← hrest] at hback
  rw [locate_eq_behind hsize, hback]

/-- The position of a character boundary of `text` from byte `start` to byte `stop`, that leads
back to this boundary. -/
def Position.Inside (text : Text) (start stop : Nat) (p : Position) : Prop :=
  ∃ k, start ≤ k ∧ k ≤ stop ∧ (Text.splitAt? k text).isSome = true ∧ locate text k = p ∧
    offsetOf? text p = some k

/-- **An offset of a part has a position inside the part**, also when it is not a character
boundary: the start of the part is one, and the closest one is not before it. -/
theorem locate_inside {text part : Text} {o : Nat} (h : Text.PartAt text o part)
    (hsize : Text.size text + 1 < Word.limit) {n : Nat} (hn : n ≤ Text.size part) :
    (locate text (o + n)).Inside text o (o + Text.size part) := by
  have hstart : o ≤ Text.size (Text.within (o + n) text) := by
    obtain ⟨before, after, rfl, rfl⟩ := h
    rw [List.append_assoc, Text.within_append, Text.size_append]
    exact Nat.le_add_right _ _
  have hstop := Text.size_within_le (o + n) text
  refine ⟨Text.size (Text.within (o + n) text), hstart, by omega, ?_, ?_, ?_⟩
  · exact Text.splitAt?_size_within _ _
  · exact locate_size_within _ _
  · exact offsetOf?_locate hsize _

end LocaleStrings
