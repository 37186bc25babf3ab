import LocaleStrings.Locale.Filter
import Mathlib.Data.Char
import Mathlib.Data.List.Lex
import Mathlib.Data.List.Sort

/-!
# Filters are sets

A filter keeps its keys in ascending order and without repetitions, so two lists of keys make the
same filter exactly if they have the same keys.

* `Text.precedes_iff_lt`: texts are ordered as lists are;
* `Text.mem_sortedSet`, `Text.sortedSet_ascending`: what `Text.sortedSet` gives;
* **`LocaleFilter.ofList_eq_iff`**: a filter is the set of its keys.
-/

namespace LocaleStrings

namespace Text

theorem precedes_iff_lt {s t : Text} : precedes s t = true ↔ s < t := by
  induction s generalizing t with
  | nil => cases t <;> simp [precedes]
  | cons a as ih =>
    cases t with
    | nil => simp [precedes]
    | cons b bs => simp [precedes, List.cons_lt_cons_iff, ih]

theorem mem_insert {x t : Text} {ts : List Text} : x ∈ insert t ts ↔ x = t ∨ x ∈ ts := by
  induction ts with
  | nil => simp [insert]
  | cons s ss ih =>
    unfold insert
    by_cases heq : t = s
    · simp [heq]
    · by_cases hlt : precedes t s = true
      · simp [heq, hlt]
      · simp only [beq_iff_eq, heq, hlt, if_false, Bool.false_eq_true, List.mem_cons, ih]
        exact or_left_comm

theorem insert_ascending {t : Text} {ts : List Text} (h : ts.Pairwise (· < ·)) :
    (insert t ts).Pairwise (· < ·) := by
  induction ts with
  | nil => exact List.pairwise_singleton _ _
  | cons s ss ih =>
    obtain ⟨hs, hss⟩ := List.pairwise_cons.mp h
    unfold insert
    by_cases heq : t = s
    · simpa [heq] using h
    · by_cases hlt : precedes t s = true
      · have hts := precedes_iff_lt.mp hlt
        simp only [beq_iff_eq, heq, hlt, if_false, if_true]
        refine List.pairwise_cons.mpr ⟨fun x hx => ?_, h⟩
        rcases List.mem_cons.mp hx with rfl | hx
        · exact hts
        · exact lt_trans hts (hs x hx)
      · -- neither equal nor before, so `t` belongs somewhere behind `s`
        have hst : s < t := lt_of_le_of_ne (not_lt.mp fun h => hlt (precedes_iff_lt.mpr h))
          (Ne.symm heq)
        simp only [beq_iff_eq, heq, hlt, if_false, Bool.false_eq_true]
        refine List.pairwise_cons.mpr ⟨fun x hx => ?_, ih hss⟩
        rcases mem_insert.mp hx with rfl | hx
        · exact hst
        · exact hs x hx

theorem mem_sortedSet {x : Text} {ts : List Text} : x ∈ sortedSet ts ↔ x ∈ ts := by
  induction ts with
  | nil => exact Iff.rfl
  | cons t ts ih =>
    show x ∈ insert t (sortedSet ts) ↔ x ∈ t :: ts
    rw [mem_insert, ih, List.mem_cons]

theorem sortedSet_ascending (ts : List Text) : (sortedSet ts).Pairwise (· < ·) := by
  induction ts with
  | nil => exact List.Pairwise.nil
  | cons t ts ih => exact insert_ascending ih

end Text

/-- **A filter is the set of its keys.** -/
theorem LocaleFilter.ofList_eq_iff {keys others : List Text} :
    ofList keys = ofList others ↔ ∀ key, key ∈ keys ↔ key ∈ others := by
  constructor
  · intro h key
    have hkeys : Text.sortedSet keys = Text.sortedSet others := LocaleFilter.mk.inj h
    rw [← Text.mem_sortedSet, hkeys, Text.mem_sortedSet]
  · intro h
    refine congrArg LocaleFilter.mk ?_
    refine (Text.sortedSet_ascending keys).eq_of_mem_iff (Text.sortedSet_ascending others) ?_
    intro key
    rw [Text.mem_sortedSet, Text.mem_sortedSet]
    exact h key

end LocaleStrings
