import LocaleStrings.Proofs.Document.Places
import Mathlib.Data.List.Forall2

/-!
# Components and plain locale files

The document of a component is the document of its block, read as a file of its own, moved to the
place of the block.

* `Node.MovedBy`: two nodes that say the same, one moved by an anchor;
* `Document.ParagraphMoved`: paragraphs that are moved together with their string;
* `Document.FailureMoved`: failures that say the same, one moved by an anchor;
* **`Parser.component_parse_moved`**: the parses of a component and of its block agree, up to the
  move.
-/

namespace LocaleStrings

/-- The node `m` says the same as `n`, at the place that the anchor and the offset `o` of a region
give. -/
structure Node.MovedBy (a : Anchor) (o : Nat) (n m : Node) : Prop where
  type : m.type = n.type
  raw : m.raw = n.raw
  value : m.value = n.value
  span : n.span.shifted o = .ok m.span
  start : a.compose n.loc.start = .ok m.loc.start
  stop : a.compose n.loc.stop = .ok m.loc.stop

namespace Document

/-- A paragraph and the string in it are moved. -/
structure ParagraphMoved (a : Anchor) (o : Nat) (n m : Node) : Prop extends n.MovedBy a o m where
  child : ∃ s t, n.children = [s] ∧ m.children = [t] ∧ s.type = .str ∧ s.MovedBy a o t

/-- A failure is moved: the reason stays the same, and a position of the region becomes one of the
source. -/
inductive FailureMoved (a : Anchor) : Failure → Failure → Prop
  | invalidJson {detail : String} {p q : Position} (h : a.compose p = .ok q) :
      FailureMoved a (.parse (.invalidJson detail p)) (.parse (.invalidJson detail q))
  | notAnObject (found : String) :
      FailureMoved a (.parse (.notAnObject found)) (.parse (.notAnObject found))

variable {source region : Text} {o : Nat}

/-- The same literal, placed in the region and in the source. -/
theorem fragment_moved (hregion : Text.PartAt source o region)
    (hsize : Text.size source + 2 < Word.limit) {s : Json.StringLiteral}
    (hs : Text.PartAt region s.start s.raw) :
    ParagraphMoved (.ofOffset source o) o (placed region 0 s) (placed source o s) := by
  have hend := hregion.add_size_le
  have hstop := hs.add_size_le
  have hshift : (placedSpan 0 s).shifted o = .ok (placedSpan o s) := by
    rw [Span.shifted_of_lt (by simp only [placedSpan]; omega) (by simp only [placedSpan]; omega)]
    simp only [placedSpan, Except.ok.injEq, Span.mk.injEq]
    omega
  have hcompose : ∀ k ≤ Text.size region,
      (Anchor.ofOffset source o).compose (locate region (0 + k)) = .ok (locate source (o + k)) := by
    intro k hk
    rw [Nat.zero_add, Anchor.compose_locate hregion hsize, Nat.min_eq_left hk]
  have hloc₁ := hcompose s.start (by omega)
  have hloc₂ := hcompose (s.start + Text.size s.raw) hstop
  rw [← Nat.add_assoc, ← Nat.add_assoc] at hloc₂
  have hmoved : ∀ t cs cs' v, Node.MovedBy (.ofOffset source o) o
      (.mk t s.raw (placedSpan 0 s) (locateSpan region (placedSpan 0 s)) cs v)
      (.mk t s.raw (placedSpan o s) (locateSpan source (placedSpan o s)) cs' v) :=
    fun t cs cs' v => ⟨rfl, rfl, rfl, hshift, hloc₁, hloc₂⟩
  exact { hmoved .paragraph _ _ none with
    child := ⟨_, _, rfl, rfl, rfl, hmoved .str [] [] (some s.value)⟩ }

/-- The reason why a region has no entries, reported for the region and for the source. -/
theorem failure_moved (hregion : Text.PartAt source o region)
    (hsize : Text.size source + 2 < Word.limit) {filter : Option LocaleFilter} {e : ParseError}
    (he : Locale.pick region filter = .error e) :
    FailureMoved (.ofOffset source o) (.ofParseError (.ofOffset region 0) e)
      (.ofParseError (.ofOffset source o) e) := by
  have hend := hregion.add_size_le
  rcases Locale.pick_cases region filter with ⟨-, detail, k, hpick⟩ | ⟨-, -, found, hpick⟩ |
    ⟨-, ts, ms, -, -, hpick⟩
  · obtain rfl : ParseError.invalidJson detail (locate region k) = e :=
      Except.error.inj (hpick.symm.trans he)
    have hmove := Anchor.compose_locate hregion hsize k
    have hstay : (Anchor.ofOffset region 0).compose (locate region k) = .ok (locate region k) :=
      Anchor.compose_zero_locate (by omega) k
    unfold Failure.ofParseError
    simp only [ParseError.anchored, hmove, hstay, Except.map]
    exact .invalidJson hmove
  · obtain rfl : ParseError.notAnObject found = e := Except.error.inj (hpick.symm.trans he)
    exact .notAnObject found
  · rw [hpick] at he
    cases he

end Document

open Document

/-- **A component is parsed as its block is, moved by the anchor of the block.** One of the two
parses succeeds if the other does; then their paragraphs agree one by one, and otherwise their
failures do. -/
theorem Parser.component_parse_moved {source : Text}
    (hsize : Text.size source < Word.limit - 2) {b : Component.Block}
    (hb : Component.i18nBlock? source = some b) :
    ((∃ doc, (Parser.component none).parse source = .ok doc) ↔
      ∃ plain, Parser.json.parse b.content = .ok plain) ∧
    (∀ doc plain, (Parser.component none).parse source = .ok doc →
      Parser.json.parse b.content = .ok plain →
      List.Forall₂ (ParagraphMoved (.ofOffset source b.start) b.start) plain.children
        doc.children) ∧
    ∀ e e', (Parser.component none).parse source = .error e →
      Parser.json.parse b.content = .error e' →
      FailureMoved (.ofOffset source b.start) e' e := by
  have hlimit : Text.size source + 2 < Word.limit := by omega
  have hregion := Component.i18nBlock?_partAt hb
  have hend := hregion.add_size_le
  have hcomponent := assemble_of_partAt (liesAt_block hb) hlimit none
  have hplain := assemble_of_partAt (liesAt_plain b.content) (by omega) none
  simp only [Parser.parse_component, Parser.parse_json, hb, hcomponent, hplain]
  cases hpick : Locale.pick b.content none with
  | error e =>
    refine ⟨⟨by rintro ⟨_, ⟨⟩⟩, by rintro ⟨_, ⟨⟩⟩⟩, by rintro _ _ ⟨⟩, ?_⟩
    rintro _ _ ⟨⟩ ⟨⟩
    exact failure_moved hregion hlimit hpick
  | ok kept =>
    refine ⟨⟨fun _ => ⟨_, rfl⟩, fun _ => ⟨_, rfl⟩⟩, ?_, by rintro _ _ ⟨⟩⟩
    rintro _ _ ⟨⟩ ⟨⟩
    show List.Forall₂ _ ((Locale.literals kept).map _) ((Locale.literals kept).map _)
    rw [List.forall₂_map_left_iff, List.forall₂_map_right_iff, List.forall₂_same]
    exact fun s hs => fragment_moved hregion hlimit (Locale.partAt_of_pick hpick s hs)

/-- A component whose block is no JSON. -/
def unfinished : Text := "<p/>\n  <i18n>\x7b\"en\": ,\x7d</i18n>".toList

/-- Both outcomes occur, and the parses agree on each. -/
theorem morning_unfinished_moved :
    (∃ b doc plain, Component.i18nBlock? morning = some b ∧
      (Parser.component none).parse morning = .ok doc ∧ Parser.json.parse b.content = .ok plain ∧
      List.Forall₂ (ParagraphMoved (.ofOffset morning b.start) b.start) plain.children
        doc.children) ∧
    ∃ b, Component.i18nBlock? unfinished = some b ∧
      (Parser.component none).parse unfinished
        = .error (.parse (.invalidJson "expected value" ⟨2, 15⟩)) ∧
      FailureMoved (.ofOffset unfinished b.start)
        (.parse (.invalidJson "expected value" ⟨1, 7⟩))
        (.parse (.invalidJson "expected value" ⟨2, 15⟩)) := by
  constructor
  · have hb : Component.i18nBlock? morning = some ⟨"i18n".toList, [],
        "\n\x7b\"ja\":\x7b\"m\":\"朝\"\x7d\x7d".toList, 6, 25⟩ := by
      decide +kernel
    have hsize : Text.size morning < Word.limit - 2 := by decide +kernel
    have hlength : ((Parser.component none).parse morning).map (·.children.length) = .ok 1 := by
      decide +kernel
    obtain ⟨doc, hdoc, -⟩ := Except.exists_of_map_eq_ok hlength
    obtain ⟨hiff, hmoved, -⟩ := Parser.component_parse_moved hsize hb
    obtain ⟨plain, hplain⟩ := hiff.mp ⟨doc, hdoc⟩
    exact ⟨_, doc, plain, hb, hdoc, hplain, hmoved doc plain hdoc hplain⟩
  · have hb : Component.i18nBlock? unfinished = some ⟨"i18n".toList, [],
        "\x7b\"en\": ,\x7d".toList, 13, 22⟩ := by
      decide +kernel
    have hsize : Text.size unfinished < Word.limit - 2 := by decide +kernel
    have hcomponent : (Parser.component none).parse unfinished
        = .error (.parse (.invalidJson "expected value" ⟨2, 15⟩)) := by
      refine Except.eq_error_of_map_eq_error (f := fun _ => ()) ?_
      decide +kernel
    have hplain : Parser.json.parse "\x7b\"en\": ,\x7d".toList
        = .error (.parse (.invalidJson "expected value" ⟨1, 7⟩)) := by
      refine Except.eq_error_of_map_eq_error (f := fun _ => ()) ?_
      decide +kernel
    exact ⟨_, hb, hcomponent,
      (Parser.component_parse_moved hsize hb).2.2 _ _ hcomponent hplain⟩

end LocaleStrings
