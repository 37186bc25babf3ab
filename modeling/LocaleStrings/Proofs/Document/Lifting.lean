import LocaleStrings.Document.Lift
import LocaleStrings.Proofs.Source.Positions

/-!
# The two ways of placing a string

A string of a region is placed in the whole text either by composing its place in the region with
the anchor of the region, or by looking its span up in the whole text.

* `Anchor.composeSpan_of_partAt`, `Anchor.composeLocation_locateSpan`: spans and locations of a
  region, moved into the whole text;
* `Leaf.lift_of_partAt`, `Leaf.liftAbsolute_of_partAt`: what either way gives;
* **`Leaf.lift_agrees`**: both ways succeed and give the same paragraph.
-/

namespace LocaleStrings

section Region

variable {text region : Text} {o : Nat} (hregion : Text.PartAt text o region)
  (hsize : Text.size text + 2 < Word.limit) {s : Span} (hstart : s.start ≤ Text.size region)
  (hstop : s.stop ≤ Text.size region)

include hregion hsize hstart hstop

theorem Anchor.composeSpan_of_partAt :
    (Anchor.ofOffset text o).composeSpan s = .ok ⟨o + s.start, o + s.stop⟩ := by
  have hend := hregion.add_size_le
  have hoffset : (Anchor.ofOffset text o).offset = o := Word.truncate_of_lt (by omega)
  rw [Anchor.composeSpan, hoffset, Span.shifted_of_lt (by omega) (by omega), Nat.add_comm s.start,
    Nat.add_comm s.stop]

/-- An end inside a character of the region is inside the same character of the whole text, so
both are taken back to the same place. -/
theorem Anchor.composeLocation_locateSpan :
    (Anchor.ofOffset text o).composeLocation (locateSpan region s)
      = .ok (locateSpan text ⟨o + s.start, o + s.stop⟩) := by
  have h₁ := Anchor.compose_locate hregion hsize s.start
  have h₂ := Anchor.compose_locate hregion hsize s.stop
  rw [Nat.min_eq_left hstart] at h₁
  rw [Nat.min_eq_left hstop] at h₂
  rw [Anchor.composeLocation, locateSpan_eq, locateSpan_eq, h₁, h₂]
  rfl

end Region

namespace Document

section Leaf

variable {text region : Text} {o : Nat} (hregion : Text.PartAt text o region)
  (hsize : Text.size text + 2 < Word.limit) (l : Leaf)
  (hstart : l.span.start ≤ Text.size region) (hstop : l.span.stop ≤ Text.size region)

include hregion hsize hstart hstop

theorem Leaf.lift_of_partAt :
    l.lift (.ofOffset text o) region
      = .ok (fragment l ⟨o + l.span.start, o + l.span.stop⟩
          (locateSpan text ⟨o + l.span.start, o + l.span.stop⟩)) := by
  rw [Leaf.lift_eq, Anchor.composeLocation_locateSpan hregion hsize hstart hstop,
    Anchor.composeSpan_of_partAt hregion hsize hstart hstop]
  rfl

theorem Leaf.liftAbsolute_of_partAt :
    l.liftAbsolute (.ofOffset text o) text
      = .ok (fragment l ⟨o + l.span.start, o + l.span.stop⟩
          (locateSpan text ⟨o + l.span.start, o + l.span.stop⟩)) := by
  rw [Leaf.liftAbsolute, Anchor.composeSpan_of_partAt hregion hsize hstart hstop]
  rfl

end Leaf

/-- **Both ways of placing a string agree.** They give the paragraph over the bytes of the whole
text that the span of the string stands for, whether or not its ends are character boundaries, and
neither of them overflows. -/
theorem Leaf.lift_agrees {text region : Text} {o : Nat} (hregion : Text.PartAt text o region)
    (hsize : Text.size text < Word.limit - 2) (l : Leaf) (horder : l.span.start ≤ l.span.stop)
    (hend : l.span.stop ≤ Text.size region) :
    ∃ n : Node, l.lift (.ofOffset text o) region = .ok n ∧
      l.liftAbsolute (.ofOffset text o) text = .ok n ∧
      n.span = ⟨o + l.span.start, o + l.span.stop⟩ ∧ n.loc = locateSpan text n.span ∧
      n = fragment l n.span n.loc := by
  have hlimit : Text.size text + 2 < Word.limit := by omega
  have hstart : l.span.start ≤ Text.size region := Nat.le_trans horder hend
  exact ⟨_, Leaf.lift_of_partAt hregion hlimit l hstart hend,
    Leaf.liftAbsolute_of_partAt hregion hlimit l hstart hend, rfl, rfl, rfl⟩

/-- A region behind a character of three bytes, with a newline between two more of them. The span
starts inside the first and ends inside the second. -/
theorem Leaf.lift_agrees_inside_characters :
    Text.PartAt "朝[朝\n朝]".toList 4 "朝\n朝".toList ∧
    ∃ n : Node,
      (⟨"\"\"".toList, [], ⟨1, 6⟩⟩ : Leaf).lift (.ofOffset "朝[朝\n朝]".toList 4) "朝\n朝".toList
        = .ok n ∧
      (⟨"\"\"".toList, [], ⟨1, 6⟩⟩ : Leaf).liftAbsolute (.ofOffset "朝[朝\n朝]".toList 4)
        "朝[朝\n朝]".toList = .ok n ∧
      n.span = ⟨5, 10⟩ ∧ n.loc = ⟨⟨1, 2⟩, ⟨2, 0⟩⟩ := by
  have hregion : Text.PartAt "朝[朝\n朝]".toList 4 "朝\n朝".toList :=
    ⟨"朝[".toList, "]".toList, by decide, by decide⟩
  obtain ⟨n, hlift, habsolute, hspan, hloc, -⟩ :=
    Leaf.lift_agrees hregion (by decide) ⟨"\"\"".toList, [], ⟨1, 6⟩⟩ (by decide) (by decide)
  refine ⟨hregion, n, hlift, habsolute, hspan, ?_⟩
  rw [hloc, hspan]
  decide

end Document

end LocaleStrings
