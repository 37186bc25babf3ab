import LocaleStrings.Document.Parser
import LocaleStrings.Proofs.Component.Places
import LocaleStrings.Proofs.Document.Lifting
import LocaleStrings.Proofs.Locale.Entries
import LocaleStrings.Proofs.Tree.Shape

/-!
# The places of the nodes of a document

A literal is placed by composing its place in the region with the anchor of the region. In a
source below the 32-bit limit the composition never overflows, and it gives the place of the
literal in the whole source.

* `lift_of_partAt`: the paragraph of a literal covers it in the source;
* `assemble_of_partAt`: the document of a source whose locale text is a part of it;
* `Node.PointsBack`: what the place of a node should say;
* **`Parser.parse_pointsBack`**: every node of a document points back at its own text.
-/

namespace LocaleStrings

namespace Document

open Json (StringLiteral)

/-! ## Literals -/

/-- The span of a literal of a region that starts at byte `o` of the source. -/
def placedSpan (o : Nat) (s : StringLiteral) : Span := ⟨o + s.start, o + s.start + Text.size s.raw⟩

/-- The paragraph that covers a literal in the source. -/
def placed (source : Text) (o : Nat) (s : StringLiteral) : Node :=
  fragment (.ofLiteral s) (placedSpan o s) (locateSpan source (placedSpan o s))

variable {source region : Text} {o : Nat}

/-- **A literal of a region is placed where it stands in the source.** -/
theorem lift_of_partAt (hregion : Text.PartAt source o region)
    (hsize : Text.size source + 2 < Word.limit) {s : StringLiteral}
    (hs : Text.PartAt region s.start s.raw) :
    lift s (.ofOffset source o) region = .ok (placed source o s) := by
  have hend := hregion.add_size_le
  have hstop := hs.add_size_le
  have hspan := Locale.span_of_partAt hs (by omega)
  have hlift := Leaf.lift_of_partAt hregion hsize (.ofLiteral s)
    (by simp only [Leaf.ofLiteral, hspan]; omega) (by simp only [Leaf.ofLiteral, hspan]; exact hstop)
  rw [lift_eq, hlift]
  simp only [Leaf.ofLiteral, hspan, placed, placedSpan, Nat.add_assoc]

theorem liftAll_of_partAt (hregion : Text.PartAt source o region)
    (hsize : Text.size source + 2 < Word.limit) {ss : List StringLiteral}
    (hss : ∀ s ∈ ss, Text.PartAt region s.start s.raw) :
    liftAll (.ofOffset source o) region ss = .ok (ss.map (placed source o)) := by
  induction ss with
  | nil => rfl
  | cons s ss ih =>
    rw [liftAll_cons, lift_of_partAt hregion hsize (hss s List.mem_cons_self),
      ih fun s hs => hss s (List.mem_cons_of_mem _ hs)]
    rfl

/-! ## Documents -/

/-- The locale text of a source is the part `region` at byte `o`. -/
def SourceKind.LiesAt (kind : SourceKind) (source : Text) (o : Nat) (region : Text) : Prop :=
  Text.PartAt source o region ∧ kind.region source = (region, .ofOffset source o)

theorem liesAt_plain (source : Text) : SourceKind.plain.LiesAt source 0 source := by
  refine ⟨Text.PartAt.refl source, ?_⟩
  rw [Anchor.ofOffset_zero]
  rfl

theorem liesAt_of_partAt {b : Component.Block} (hb : Text.PartAt source b.start b.content) :
    (SourceKind.block b).LiesAt source b.start b.content :=
  ⟨hb, rfl⟩

theorem liesAt_block {b : Component.Block} (hb : Component.i18nBlock? source = some b) :
    (SourceKind.block b).LiesAt source b.start b.content :=
  liesAt_of_partAt (Component.i18nBlock?_partAt hb)

/-- **The document of a source whose locale text is a part of it.** -/
theorem assemble_of_partAt {kind : SourceKind} (hkind : kind.LiesAt source o region)
    (hsize : Text.size source + 2 < Word.limit) (filter : Option LocaleFilter) :
    assemble source kind filter =
      match Locale.pick region filter with
      | .error e => .error (.ofParseError (.ofOffset source o) e)
      | .ok kept => .ok (.document source ⟨0, Text.size source⟩
          (locateSpan source ⟨0, Text.size source⟩)
          ((Locale.literals kept).map (placed source o))) := by
  obtain ⟨hregion, hkind⟩ := hkind
  have hspan : Span.ofOffsets 0 (Text.size source) = ⟨0, Text.size source⟩ := by
    rw [Span.ofOffsets_eq, Word.truncate_of_lt (by omega), Word.truncate_of_lt (by omega)]
  rw [assemble_eq, hkind]
  cases hpick : Locale.pick region filter with
  | error e => rfl
  | ok kept =>
    rw [ofEntries_ok, liftAll_of_partAt hregion hsize (Locale.partAt_of_pick hpick), hspan]
    rfl

end Document

/-! ## Nodes point back at their text -/

/-- A node points back at its own text in `source`: its span covers the text, its location is that
of its span, and both ends of the location lead back to the ends of the span. -/
structure Node.PointsBack (source : Text) (n : Node) : Prop where
  slice : n.span.slice source = some n.raw
  loc : n.loc = locateSpan source n.span
  start : offsetOf? source n.loc.start = some n.span.start
  stop : offsetOf? source n.loc.stop = some n.span.stop

/-- A node over a part of the source points back at it. -/
theorem Node.pointsBack_of_partAt {source : Text} {n : Node} {o : Nat}
    (h : Text.PartAt source o n.raw) (hsize : Text.size source + 1 < Word.limit)
    (hspan : n.span = ⟨o, o + Text.size n.raw⟩) (hloc : n.loc = locateSpan source n.span) :
    n.PointsBack source := by
  obtain ⟨hstart, hstop⟩ := offsetOf?_locate_of_partAt h hsize
  refine ⟨?_, hloc, ?_, ?_⟩
  · rw [hspan]
    exact h.slice
  · rw [hloc, hspan]
    exact hstart
  · rw [hloc, hspan]
    exact hstop

namespace Document

/-- The paragraph of a literal and the string in it point back at the literal. -/
theorem pointsBack_placed {source : Text} {o : Nat} {s : Json.StringLiteral}
    (hsize : Text.size source + 1 < Word.limit) (hs : Text.PartAt source (o + s.start) s.raw)
    {n : Node} (hn : n.Occurs (placed source o s)) : n.PointsBack source := by
  cases hn with
  | root => exact Node.pointsBack_of_partAt hs hsize rfl rfl
  | child hc hn =>
    obtain rfl := List.mem_singleton.mp hc
    cases hn with
    | root => exact Node.pointsBack_of_partAt hs hsize rfl rfl
    | child hc => cases hc

theorem pointsBack_empty {source : Text} (hsize : Text.size source + 1 < Word.limit) {n : Node}
    (hn : n.Occurs empty) : n.PointsBack source := by
  cases hn with
  | root =>
    have hpart : Text.PartAt source 0 [] := ⟨[], source, rfl, rfl⟩
    refine Node.pointsBack_of_partAt hpart hsize rfl ?_
    have hfirst : locate source 0 = .first := by
      rw [locate_eq, Text.within_zero]
      rfl
    rw [locateSpan_eq]
    show Location.point .first = ⟨locate source 0, locate source 0⟩
    rw [hfirst]
    rfl
  | child hc => cases hc

theorem pointsBack_assemble {source region : Text} {o : Nat} {kind : SourceKind}
    (hkind : kind.LiesAt source o region) (hsize : Text.size source + 2 < Word.limit)
    {filter : Option LocaleFilter} {doc : Node} (h : assemble source kind filter = .ok doc)
    {n : Node} (hn : n.Occurs doc) : n.PointsBack source := by
  rw [assemble_of_partAt hkind hsize] at h
  split at h
  · cases h
  · next kept hpick =>
    cases h
    cases hn with
    | root =>
      refine Node.pointsBack_of_partAt (Text.PartAt.refl source) (by omega) ?_ rfl
      rw [Nat.zero_add]
      rfl
    | child hc hn =>
      obtain ⟨s, hs, rfl⟩ := List.mem_map.mp hc
      have hpart := hkind.1.trans (Locale.partAt_of_pick hpick s hs)
      exact pointsBack_placed (by omega) hpart hn

end Document

/-- **Every node of a document points back at its own text**, whatever the parser and its filter. -/
theorem Parser.parse_pointsBack (p : Parser) {source : Text}
    (hsize : Text.size source < Word.limit - 2) {doc : Node} (h : p.parse source = .ok doc)
    (n : Node) (hn : n.Occurs doc) : n.PointsBack source := by
  have hlimit : Text.size source + 2 < Word.limit := by omega
  cases p with
  | json => exact Document.pointsBack_assemble (Document.liesAt_plain source) hlimit h hn
  | component filter =>
    rw [Parser.parse_component] at h
    split at h
    · cases h
      exact Document.pointsBack_empty (by omega) hn
    · next b hb => exact Document.pointsBack_assemble (Document.liesAt_block hb) hlimit h hn

/-- A component whose block holds one string, on its second line and of more bytes than
characters. -/
def morning : Text := "<i18n>\n\x7b\"ja\":\x7b\"m\":\"朝\"\x7d\x7d</i18n>".toList

theorem morning_pointsBack :
    ∃ doc, (Parser.component none).parse morning = .ok doc ∧ doc.children.length = 1 ∧
      ∀ n : Node, n.Occurs doc → n.PointsBack morning := by
  have hlength : ((Parser.component none).parse morning).map (·.children.length) = .ok 1 := by
    decide +kernel
  obtain ⟨doc, hdoc, hone⟩ := Except.exists_of_map_eq_ok hlength
  exact ⟨doc, hdoc, hone, Parser.parse_pointsBack _ (by decide +kernel) hdoc⟩

end LocaleStrings
