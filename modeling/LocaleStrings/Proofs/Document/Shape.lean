import LocaleStrings.Proofs.Document.Places
import LocaleStrings.Proofs.Source.Order

/-!
# The shape of documents

* `Node.PointsBack.in_order`: a node that points back at its text has ends in order;
* `Node.HoldsString`: a paragraph with one string over the same text;
* `Document.placed_separated`: paragraphs stand in the order of their literals, and apart;
* **`Parser.parse_wellFormed`**: every document is well-shaped, and its paragraphs stand apart.
-/

namespace LocaleStrings

/-! ## Nodes -/

theorem Node.PointsBack.in_order {source : Text} {n : Node} (h : n.PointsBack source)
    (hsize : Text.size source + 1 < Word.limit) :
    n.span.start ≤ n.span.stop ∧ n.loc.start ≤ n.loc.stop ∧
      Text.size n.raw = n.span.stop - n.span.start := by
  obtain ⟨-, hstop⟩ := Text.partAt_of_slice h.slice
  have horder : n.span.start ≤ n.span.stop := by omega
  refine ⟨horder, ?_, by omega⟩
  rw [h.loc]
  exact locate_mono hsize horder

/-- A paragraph with exactly one string, which covers the same text at the same place. -/
structure Node.HoldsString (n : Node) : Prop where
  type : n.type = .paragraph
  child : ∃ s : Node, n.children = [s] ∧ s.type = .str ∧ s.raw = n.raw ∧ s.span = n.span ∧
    s.loc = n.loc

/-- A document that is well-shaped, all of whose children are paragraphs with one string. They
start one behind the other, and each ends before the next one starts. -/
structure Node.WellFormed (doc : Node) : Prop where
  valid : doc.validate = .ok ()
  type : doc.type = .document
  paragraphs : ∀ n ∈ doc.children, n.HoldsString
  separated : doc.children.Pairwise fun a b =>
    a.span.start < b.span.start ∧ a.span.stop < b.span.start

namespace Document

variable {source region : Text} {o : Nat}

theorem holdsString_placed (s : Json.StringLiteral) : (placed source o s).HoldsString :=
  ⟨rfl, _, rfl, rfl, rfl, rfl, rfl⟩

/-- A node of a placed literal fits: its place is right because it points back, and a paragraph
encloses its string because both cover the same bytes. -/
theorem fits_of_occurs_placed {s : Json.StringLiteral} {n : Node}
    (hsize : Text.size source + 1 < Word.limit) (hback : n.PointsBack source)
    (hn : n.Occurs (placed source o s)) : n.Fits := by
  obtain ⟨hspan, hloc, hraw⟩ := hback.in_order hsize
  cases hn with
  | root =>
    refine ⟨hspan, hloc, hraw, rfl, .inl rfl, fun c hc => ?_, List.isChain_singleton _⟩
    obtain rfl := List.mem_singleton.mp hc
    exact Span.encloses_iff.mpr ⟨Nat.le_refl _, Nat.le_refl _⟩
  | child hc hn =>
    obtain rfl := List.mem_singleton.mp hc
    cases hn with
    | root =>
      exact ⟨hspan, hloc, hraw, rfl, .inr rfl, fun c hc => (by cases hc), List.isChain_nil⟩
    | child hc => cases hc

/-- Literals that stand apart have paragraphs that stand apart. -/
theorem placed_separated (source : Text) (o : Nat) {ss : List Json.StringLiteral}
    (h : ss.Pairwise fun a b => a.stop < b.start) :
    (ss.map (placed source o)).Pairwise fun a b =>
      a.span.start < b.span.start ∧ a.span.stop < b.span.start := by
  refine List.pairwise_map.mpr (h.imp fun {a b} hab => ?_)
  show o + a.start < o + b.start ∧ o + a.start + Text.size a.raw < o + b.start
  unfold Json.StringLiteral.stop at hab
  omega

theorem wellFormed_assemble {kind : SourceKind} (hkind : kind.LiesAt source o region)
    (hsize : Text.size source + 2 < Word.limit) {filter : Option LocaleFilter} {doc : Node}
    (h : assemble source kind filter = .ok doc) : doc.WellFormed := by
  have hlimit : Text.size source + 1 < Word.limit := by omega
  have hback : ∀ n : Node, n.Occurs doc → n.PointsBack source :=
    fun n hn => pointsBack_assemble hkind hsize h hn
  rw [assemble_of_partAt hkind hsize] at h
  split at h
  · cases h
  · next kept hpick =>
    cases h
    have hseparated := placed_separated source o (Locale.separated_of_pick hpick)
    have hinside : ∀ s ∈ Locale.literals kept,
        (⟨0, Text.size source⟩ : Span).encloses (placedSpan o s) = true := by
      intro s hs
      have hend := (hkind.1.trans (Locale.partAt_of_pick hpick s hs)).add_size_le
      exact Span.encloses_iff.mpr ⟨Nat.zero_le _, hend⟩
    refine {
      valid := Node.validate_of_fits rfl fun n hn => ?_
      type := rfl
      paragraphs := fun n hn => ?_
      separated := hseparated }
    · cases hn with
      | root =>
        obtain ⟨hspan, hloc, hraw⟩ := (hback _ .root).in_order hlimit
        refine ⟨hspan, hloc, hraw, rfl, .inl rfl, fun c hc => ?_, ?_⟩
        · obtain ⟨s, hs, rfl⟩ := List.mem_map.mp hc
          exact hinside s hs
        · exact (hseparated.imp fun hab => Nat.le_of_lt hab.1).isChain
      | child hc hn =>
        have hpoints := hback n (.child hc hn)
        obtain ⟨s, hs, rfl⟩ := List.mem_map.mp hc
        exact fits_of_occurs_placed hlimit hpoints hn
    · obtain ⟨s, -, rfl⟩ := List.mem_map.mp hn
      exact holdsString_placed s

theorem wellFormed_empty : empty.WellFormed := by
  refine ⟨Node.validate_of_fits rfl fun n hn => ?_, rfl, fun n hn => (by cases hn),
    List.Pairwise.nil⟩
  cases hn with
  | root =>
    exact ⟨Nat.le_refl _, by decide, rfl, rfl, .inl rfl, fun c hc => (by cases hc), List.isChain_nil⟩
  | child hc => cases hc

end Document

/-- **Every document is well-shaped, and its paragraphs stand apart**, whatever the parser and its
filter. -/
theorem Parser.parse_wellFormed (p : Parser) {source : Text}
    (hsize : Text.size source < Word.limit - 2) {doc : Node} (h : p.parse source = .ok doc) :
    doc.WellFormed := by
  have hlimit : Text.size source + 2 < Word.limit := by omega
  cases p with
  | json => exact Document.wellFormed_assemble (Document.liesAt_plain source) hlimit h
  | component filter =>
    rw [Parser.parse_component] at h
    split at h
    · cases h
      exact Document.wellFormed_empty
    · next b hb => exact Document.wellFormed_assemble (Document.liesAt_block hb) hlimit h

/-- A locale file with two strings in the one array that the filter keeps, and one before them. -/
def greetings : Text :=
  "<i18n>\x7b\"en\":\"a\",\n\"ja\":[\"朝\",\"夜\"]\x7d</i18n>".toList

theorem greetings_wellFormed :
    ∃ doc : Node,
      (Parser.component (some (.ofList ["ja".toList]))).parse greetings = .ok doc ∧
      doc.children.map Node.span = [⟨23, 28⟩, ⟨29, 34⟩] ∧ doc.WellFormed := by
  have hspans : ((Parser.component (some (.ofList ["ja".toList]))).parse greetings).map
      (·.children.map Node.span) = .ok [⟨23, 28⟩, ⟨29, 34⟩] := by
    decide +kernel
  obtain ⟨doc, hdoc, hchildren⟩ := Except.exists_of_map_eq_ok hspans
  exact ⟨doc, hdoc, hchildren, Parser.parse_wellFormed _ (by decide +kernel) hdoc⟩

end LocaleStrings
