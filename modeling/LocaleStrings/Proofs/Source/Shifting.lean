import LocaleStrings.Proofs.Source.Boundaries

/-!
# Spans in a larger text

Text put in front of a text moves its parts and its character boundaries by the same number of
bytes. So a span that is moved along finds what it found before, or fails for the same reason.

* `Text.partAt_append_iff`, `Text.isBoundary_append_iff`: parts and boundaries behind a text put in
  front are those of the text itself, moved;
* `Span.slice_eq_some_iff`, `Span.slice_eq_none_iff`: what a span covers, and the reasons why it may
  cover nothing;
* **`Span.slice_shifted`**: a span moved along with its text covers what it covered.
-/

namespace LocaleStrings

namespace Text

theorem eq_nil_of_size_eq_zero {t : Text} (h : size t = 0) : t = [] := by
  have hlength := length_le_size t
  exact List.eq_nil_of_length_eq_zero (by omega)

/-- **A part behind `before` is a part of what follows it.** -/
theorem partAt_append_iff {before text part : Text} {k : Nat} :
    PartAt (before ++ text) (size before + k) part ↔ PartAt text k part := by
  constructor
  · rintro ⟨front, after, hsplit, hsize⟩
    rw [List.append_assoc] at hsplit
    rcases List.append_eq_append_iff.mp hsplit with ⟨rest, rfl, htext⟩ | ⟨rest, rfl, htext⟩
    · rw [size_append] at hsize
      exact ⟨rest, after, by rw [htext, List.append_assoc], by omega⟩
    · -- the part starts no later than `before` ends, so it starts right there
      rw [size_append] at hsize
      obtain rfl := eq_nil_of_size_eq_zero (t := rest) (by omega)
      exact ⟨[], after, htext.symm, by rw [size_nil] at hsize ⊢; omega⟩
  · intro h
    exact PartAt.trans ⟨before, [], by simp, rfl⟩ h

theorem isBoundary_iff_partAt_nil {text : Text} {k : Nat} :
    IsBoundary text k ↔ PartAt text k [] := by
  rw [isBoundary_iff]
  simp only [PartAt, List.append_nil]

/-- **The boundaries of a concatenation** behind its first text are those of the second, moved. -/
theorem isBoundary_append_iff {before text : Text} {k : Nat} :
    IsBoundary (before ++ text) (size before + k) ↔ IsBoundary text k := by
  rw [isBoundary_iff_partAt_nil, isBoundary_iff_partAt_nil, partAt_append_iff]

end Text

namespace Span

open Text (IsBoundary PartAt)

theorem slice_eq_some_iff {s : Span} {text part : Text} :
    s.slice text = some part ↔ PartAt text s.start part ∧ s.stop = s.start + Text.size part := by
  constructor
  · exact Text.partAt_of_slice
  · rintro ⟨hpart, hstop⟩
    have hslice := hpart.slice
    rwa [← hstop] at hslice

theorem exists_slice_iff {s : Span} {text : Text} :
    (∃ part, s.slice text = some part) ↔
      s.start ≤ s.stop ∧ IsBoundary text s.start ∧ IsBoundary text s.stop := by
  constructor
  · rintro ⟨part, hpart⟩
    obtain ⟨⟨before, after, rfl, hstart⟩, hstop⟩ := slice_eq_some_iff.mp hpart
    refine ⟨by omega, ?_, ?_⟩
    · exact Text.isBoundary_iff.mpr ⟨before, part ++ after, by simp, hstart⟩
    · exact Text.isBoundary_iff.mpr ⟨before ++ part, after, rfl, by simp [hstop, hstart]⟩
  · rintro ⟨horder, hstart, hstop⟩
    obtain ⟨before, after, rfl, hbefore⟩ := Text.isBoundary_iff.mp hstart
    obtain ⟨k, hk⟩ := Nat.exists_eq_add_of_le horder
    -- the boundary at the end is one of what follows the start
    rw [hk, hbefore, Text.isBoundary_append_iff] at hstop
    obtain ⟨part, rest, rfl, rfl⟩ := Text.isBoundary_iff.mp hstop
    exact ⟨part, slice_eq_some_iff.mpr ⟨⟨before, rest, by simp, hbefore⟩, hk⟩⟩

/-- A span covers nothing if it is inverted or if one of its ends is no character boundary, as no
offset past the end of the text is. -/
theorem slice_eq_none_iff {s : Span} {text : Text} :
    s.slice text = none ↔
      s.stop < s.start ∨ ¬ IsBoundary text s.start ∨ ¬ IsBoundary text s.stop := by
  rw [← Option.not_isSome_iff_eq_none, Option.isSome_iff_exists, exists_slice_iff,
    Decidable.not_and_iff_or_not, Decidable.not_and_iff_or_not, Nat.not_le]

/-! ## Moving along -/

theorem slice_append_left (before text : Text) (s : Span) :
    (⟨s.start + Text.size before, s.stop + Text.size before⟩ : Span).slice (before ++ text)
      = s.slice text := by
  ext part
  rw [slice_eq_some_iff, slice_eq_some_iff, Nat.add_comm s.start, Text.partAt_append_iff]
  refine and_congr_right fun _ => ?_
  show s.stop + Text.size before = Text.size before + s.start + Text.size part ↔ _
  omega

theorem slice_append_right {s : Span} {text part : Text} (h : s.slice text = some part)
    (after : Text) : s.slice (text ++ after) = some part := by
  obtain ⟨⟨before, rest, rfl, hstart⟩, hstop⟩ := slice_eq_some_iff.mp h
  exact slice_eq_some_iff.mpr ⟨⟨before, rest ++ after, by simp, hstart⟩, hstop⟩

/-- **A span moved along with its text covers what it covered.** Below the 32-bit limit it can be
moved over any text `pre` in front of `mid`. It then covers the same part, or nothing if it covered
nothing, which is so if it is inverted, leaves the text or cuts a character; and text behind `mid`
does not change what it covers. -/
theorem slice_shifted (pre mid post : Text) (s : Span)
    (hstart : s.start + Text.size pre < Word.limit) (hstop : s.stop + Text.size pre < Word.limit) :
    ∃ moved, s.shifted (Text.size pre) = .ok moved ∧
      moved.slice (pre ++ mid) = s.slice mid ∧
      (∀ x, s.slice mid = some x → moved.slice (pre ++ mid ++ post) = some x) ∧
      (s.slice mid = none ↔
        s.stop < s.start ∨ ¬ IsBoundary mid s.start ∨ ¬ IsBoundary mid s.stop) := by
  have hmoved := slice_append_left pre mid s
  refine ⟨_, shifted_of_lt hstart hstop, hmoved, fun x hx => ?_, slice_eq_none_iff⟩
  exact slice_append_right (hmoved.trans hx) post

/-- A character of two bytes goes in front of seven bytes. The first span covers a character of
three bytes; the others cut it, are inverted or leave the text. -/
theorem slice_shifted_accented :
    (⟨3, 6⟩ : Span).slice accented = some "朝".toList ∧
    (∃ moved, (⟨3, 6⟩ : Span).shifted 2 = .ok moved ∧
      moved.slice ("é".toList ++ accented) = some "朝".toList ∧
      moved.slice ("é".toList ++ accented ++ "é".toList) = some "朝".toList) ∧
    ∀ s ∈ [(⟨3, 5⟩ : Span), ⟨6, 3⟩, ⟨6, 9⟩], s.slice accented = none ∧
      ∃ moved, s.shifted 2 = .ok moved ∧ moved.slice ("é".toList ++ accented) = none := by
  have hcovers : (⟨3, 6⟩ : Span).slice accented = some "朝".toList := by decide +kernel
  refine ⟨hcovers, ?_, fun s hs => ?_⟩
  · obtain ⟨moved, hmoved, hsame, hlonger, -⟩ := slice_shifted "é".toList accented "é".toList
      ⟨3, 6⟩ (by decide +kernel) (by decide +kernel)
    exact ⟨moved, hmoved, hsame.trans hcovers, hlonger _ hcovers⟩
  · have hnone : s.slice accented = none := by
      revert s
      decide +kernel
    have hlimit : s.start + 2 < Word.limit ∧ s.stop + 2 < Word.limit := by
      revert s
      decide +kernel
    obtain ⟨moved, hmoved, hsame, -⟩ := slice_shifted "é".toList accented [] s hlimit.1 hlimit.2
    exact ⟨hnone, moved, hmoved, hsame.trans hnone⟩

end Span

end LocaleStrings
