import LocaleStrings.Proofs.Source.Order
import Mathlib.Order.Bounds.Defs

/-!
# Character boundaries

Every offset has a position, but only the offsets between two characters are told apart by it: a
position stands for the last character boundary that is not behind the offset.

* `Text.IsBoundary`: an offset at which a text can be cut;
* `Text.isGreatest_size_within`: what fits into `n` bytes ends at the last boundary up to `n`;
* **`offsetOf?_locate_isGreatest`**: the position of any offset leads back to this boundary;
* `locate_eq_iff`: two offsets share their position exactly if no boundary comes between them;
* **`locate_ordered`**: positions are ordered as the boundaries are, and no location is inverted.
-/

namespace LocaleStrings

namespace Text

/-- Byte `k` of the text, or its end, is where a character starts. -/
def IsBoundary (text : Text) (k : Nat) : Prop := (splitAt? k text).isSome = true

instance (text : Text) (k : Nat) : Decidable (IsBoundary text k) :=
  inferInstanceAs (Decidable ((splitAt? k text).isSome = true))

theorem isBoundary_iff {text : Text} {k : Nat} :
    IsBoundary text k ↔ ∃ before after, text = before ++ after ∧ k = size before := by
  constructor
  · intro h
    obtain ⟨⟨before, after⟩, hcut⟩ := Option.isSome_iff_exists.mp h
    exact ⟨before, after, splitAt?_eq_some hcut⟩
  · rintro ⟨before, after, rfl, rfl⟩
    rw [IsBoundary, splitAt?_size]
    rfl

theorem isBoundary_size (text : Text) : IsBoundary text (size text) :=
  isBoundary_iff.mpr ⟨text, [], by simp, rfl⟩

theorem IsBoundary.le_size {text : Text} {k : Nat} (h : IsBoundary text k) : k ≤ size text := by
  obtain ⟨before, after, rfl, rfl⟩ := isBoundary_iff.mp h
  simp

theorem IsBoundary.size_within {text : Text} {k : Nat} (h : IsBoundary text k) :
    size (within k text) = k := by
  obtain ⟨before, after, rfl, rfl⟩ := isBoundary_iff.mp h
  rw [within_size_append]

theorem IsBoundary.le_size_within {text : Text} {k n : Nat} (h : IsBoundary text k) (hk : k ≤ n) :
    k ≤ size (within n text) := by
  obtain ⟨rest, hrest⟩ := exists_within_append hk text
  rw [hrest, size_append, h.size_within]
  exact Nat.le_add_right k _

/-- **What fits into `n` bytes ends at the last boundary that is not behind `n`.** -/
theorem isGreatest_size_within (n : Nat) (text : Text) :
    IsGreatest {k | IsBoundary text k ∧ k ≤ min n (size text)} (size (within n text)) := by
  have hboundary : IsBoundary text (size (within n text)) := splitAt?_size_within n text
  constructor
  · exact ⟨hboundary, Nat.le_min.mpr ⟨size_within_le n text, hboundary.le_size⟩⟩
  · rintro k ⟨hk, hle⟩
    exact hk.le_size_within (Nat.le_trans hle (Nat.min_le_left _ _))

end Text

open Text (IsBoundary)

variable {text : Text}

/-! ## There and back -/

/-- **The position of an offset leads back to the last character boundary that is not behind it.**
The offset may be past the end or inside a character; a boundary leads back to itself. -/
theorem offsetOf?_locate_isGreatest (hsize : Text.size text < Word.limit - 2) :
    (∀ o, ∃ k, IsGreatest {k | IsBoundary text k ∧ k ≤ min o (Text.size text)} k ∧
      offsetOf? text (locate text o) = some k) ∧
    (∀ k, IsBoundary text k → offsetOf? text (locate text k) = some k) ∧
    offsetOf? text (locate text (Text.size text)) = some (Text.size text) := by
  have hback : ∀ k, IsBoundary text k → offsetOf? text (locate text k) = some k := by
    intro k hk
    rw [offsetOf?_locate (by omega), hk.size_within]
  refine ⟨fun o => ?_, hback, hback _ (Text.isBoundary_size text)⟩
  exact ⟨_, Text.isGreatest_size_within o text, offsetOf?_locate (by omega) o⟩

/-- Two lines with a character of two bytes and one of three. -/
def accented : Text := "é\n朝!".toList

/-- Byte 5 is the last one of a character that starts at byte 3. -/
theorem accented_isGreatest :
    Text.size accented < Word.limit - 2 ∧ locate accented 5 = ⟨2, 0⟩ ∧
    offsetOf? accented (locate accented 5) = some 3 ∧
    (∃ k, IsGreatest {k | IsBoundary accented k ∧ k ≤ min 5 (Text.size accented)} k ∧
      offsetOf? accented (locate accented 5) = some k) ∧
    IsBoundary accented 6 ∧ offsetOf? accented (locate accented 6) = some 6 := by
  have hsize : Text.size accented < Word.limit - 2 := by decide +kernel
  have hboundary : IsBoundary accented 6 := by decide +kernel
  obtain ⟨hgreatest, hback, -⟩ := offsetOf?_locate_isGreatest hsize
  exact ⟨hsize, by decide +kernel, by decide +kernel, hgreatest 5, hboundary, hback 6 hboundary⟩

/-! ## Boundaries in between -/

/-- A position stands for one boundary. -/
theorem locate_eq_iff_size_within (hsize : Text.size text + 1 < Word.limit) (a b : Nat) :
    locate text a = locate text b ↔
      Text.size (Text.within a text) = Text.size (Text.within b text) := by
  constructor
  · intro h
    have hback := offsetOf?_locate hsize a
    rw [h, offsetOf?_locate hsize b] at hback
    exact (Option.some.inj hback).symm
  · intro h
    rw [← locate_size_within a, h, locate_size_within]

theorem locate_eq_iff (hsize : Text.size text + 1 < Word.limit) {a b : Nat} (h : a ≤ b) :
    locate text a = locate text b ↔
      ¬ ∃ k, IsBoundary text k ∧ a < k ∧ k ≤ min b (Text.size text) := by
  have hb := Text.isGreatest_size_within b text
  have ha := Text.isGreatest_size_within a text
  rw [locate_eq_iff_size_within hsize]
  constructor
  · rintro hsame ⟨k, hk, hak, hkb⟩
    have hle : k ≤ Text.size (Text.within b text) := hb.2 ⟨hk, hkb⟩
    have := Text.size_within_le a text
    omega
  · intro hnone
    have hge : Text.size (Text.within a text) ≤ Text.size (Text.within b text) :=
      ha.1.1.le_size_within (Nat.le_trans (Text.size_within_le a text) h)
    have hle : Text.size (Text.within b text) ≤ Text.size (Text.within a text) := by
      refine hb.1.1.le_size_within (Nat.le_of_not_lt fun hlt => hnone ?_)
      exact ⟨_, hb.1.1, hlt, hb.1.2⟩
    exact Nat.le_antisymm hge hle

/-- **Positions are ordered as offsets are**, and equal only when no character boundary comes
between the offsets. So the location of a span whose ends are in order is not inverted. -/
theorem locate_ordered (hsize : Text.size text < Word.limit - 2) :
    (∀ a b, a ≤ b → locate text a ≤ locate text b ∧
      (locate text a = locate text b ↔
        ¬ ∃ k, IsBoundary text k ∧ a < k ∧ k ≤ min b (Text.size text))) ∧
    ∀ span : Span, span.start ≤ span.stop →
      (locateSpan text span).start ≤ (locateSpan text span).stop := by
  have hlimit : Text.size text + 1 < Word.limit := by omega
  constructor
  · intro a b h
    exact ⟨locate_mono hlimit h, locate_eq_iff hlimit h⟩
  · intro span h
    exact locate_mono hlimit h

/-- Bytes 3 and 5 belong to one character, byte 2 ends the line before it. -/
theorem accented_ordered :
    Text.size accented < Word.limit - 2 ∧
    (locate accented 3 ≤ locate accented 5 ∧
      (locate accented 3 = locate accented 5 ↔
        ¬ ∃ k, IsBoundary accented k ∧ 3 < k ∧ k ≤ min 5 (Text.size accented))) ∧
    locate accented 2 = ⟨1, 1⟩ ∧ locate accented 3 = ⟨2, 0⟩ ∧ locate accented 5 = ⟨2, 0⟩ ∧
    (locateSpan accented ⟨2, 5⟩).start ≤ (locateSpan accented ⟨2, 5⟩).stop := by
  have hsize : Text.size accented < Word.limit - 2 := by decide +kernel
  obtain ⟨horder, hspan⟩ := locate_ordered hsize
  exact ⟨hsize, horder 3 5 (by decide), by decide +kernel, by decide +kernel, by decide +kernel,
    hspan ⟨2, 5⟩ (by decide)⟩

end LocaleStrings
