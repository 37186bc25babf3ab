import LocaleStrings.Proofs.Document.Places

/-!
# Documents with and without a filter

A filter has no say in what is read of a source, only in what is kept of it.

* `Document.memberNodes`: the paragraphs of a top-level member;
* `Document.assemble_of_isObject`: the paragraphs of a document, member by member;
* `Document.KeepsOf`: one document is the other, less the members that a filter does not keep;
* **`Document.assemble_filter`**: with a filter a source fails as it does without, and otherwise
  loses exactly the paragraphs of the members whose key the filter does not hold.
-/

namespace LocaleStrings.Document

open Json

variable {source region : Text} {o : Nat}

/-- The paragraphs of a member of the locale text that starts at byte `o` of the source: one for
each string token in value position. -/
def memberNodes (source : Text) (o : Nat) (m : Member) : List Node :=
  (valueStrings m.tokens).map (placed source o)

theorem placed_literals {ms : List Member} (h : ∀ m ∈ ms, IsValue 1 m.tokens m.value) :
    (Locale.literals (ms.map Locale.Entry.ofMember)).map (placed source o)
      = ms.flatMap (memberNodes source o) := by
  rw [Locale.literals_ofMember h, List.map_flatMap]
  rfl

/-- **The document of a source, member by member.** -/
theorem assemble_of_isObject {kind : SourceKind} (hkind : kind.LiesAt source o region)
    (hsize : Text.size source + 2 < Word.limit) {ts : List Token} {ms : List Member}
    (hms : IsObject ts ms) {filter : Option LocaleFilter}
    (hpick : Locale.pick region filter
      = .ok ((Locale.keptMembers filter ms).map Locale.Entry.ofMember)) :
    assemble source kind filter = .ok (.document source ⟨0, Text.size source⟩
      (locateSpan source ⟨0, Text.size source⟩)
      ((Locale.keptMembers filter ms).flatMap (memberNodes source o))) := by
  have hvalues : ∀ m ∈ Locale.keptMembers filter ms, IsValue 1 m.tokens m.value :=
    fun m hm => hms.member_isValue m ((Locale.keptMembers_sublist filter ms).subset hm)
  rw [assemble_of_partAt hkind hsize, hpick]
  simp only [placed_literals hvalues]

/-- `kept` is the document `all` of the locale text `region` at byte `o` of the source, with the
paragraphs of those members only whose decoded key is in the filter. Members come as the grammar
gives them, so a key that is repeated or written with escapes counts like any other. -/
structure KeepsOf (source : Text) (o : Nat) (region : Text) (f : LocaleFilter)
    (all kept : Node) : Prop where
  type : kept.type = all.type
  raw : kept.raw = all.raw
  span : kept.span = all.span
  loc : kept.loc = all.loc
  sublist : kept.children.Sublist all.children
  members : ∃ ts ms, Spelled 0 region ts ∧ IsObject ts ms ∧
    all.children = ms.flatMap (memberNodes source o) ∧
    kept.children = (ms.filter (·.key ∈ f.keys)).flatMap (memberNodes source o)

theorem keptMembers_some (f : LocaleFilter) (ms : List Member) :
    Locale.keptMembers (some f) ms = ms.filter (·.key ∈ f.keys) := by
  unfold Locale.keptMembers LocaleFilter.keeps LocaleFilter.contains
  congr 1
  funext m
  exact List.contains_eq_mem _ _

theorem keptMembers_none (ms : List Member) : Locale.keptMembers none ms = ms :=
  List.filter_eq_self.mpr fun _ _ => rfl

/-- The two documents of a locale text whose entries can be read. -/
theorem keepsOf_of_pick {kind : SourceKind} (hkind : kind.LiesAt source o region)
    (hsize : Text.size source + 2 < Word.limit) (f : LocaleFilter) {es : List Locale.Entry}
    (hpick : Locale.pick region none = .ok es) :
    ∃ all kept, assemble source kind none = .ok all ∧ assemble source kind (some f) = .ok kept ∧
      KeepsOf source o region f all kept := by
  obtain ⟨ts, ms, hspell, hms, rfl⟩ := Locale.exists_isObject_of_pick hpick
  have hfilter : Locale.pick region (some f)
      = .ok ((Locale.keptMembers (some f) ms).map Locale.Entry.ofMember) := by
    rw [Locale.pick_eq_map, hpick, keptMembers_none]
    simp only [Except.map, List.filter_map]
    rfl
  have hall := assemble_of_isObject hkind hsize hms hpick
  have hkept := assemble_of_isObject hkind hsize hms hfilter
  rw [keptMembers_none] at hall
  rw [keptMembers_some] at hkept
  refine ⟨_, _, hall, hkept, ?_⟩
  exact {
    type := rfl
    raw := rfl
    span := rfl
    loc := rfl
    sublist := List.filter_sublist.flatMap _
    members := ⟨ts, ms, hspell, hms, rfl, rfl⟩ }

/-- **A filter changes what is kept of a source, and not what is read of it.** With a filter the
source fails exactly if it does without one, for the same reason at the same place. Otherwise both
documents cover the same text, and the filter keeps the paragraphs of the members whose key it
holds, each where it was. -/
theorem assemble_filter {kind : SourceKind} (hkind : kind.LiesAt source o region)
    (hsize : Text.size source < Word.limit - 2) (f : LocaleFilter) :
    (∀ e, assemble source kind (some f) = .error e ↔ assemble source kind none = .error e) ∧
    ∀ all kept, assemble source kind none = .ok all → assemble source kind (some f) = .ok kept →
      KeepsOf source o region f all kept := by
  have hlimit : Text.size source + 2 < Word.limit := by omega
  cases hpick : Locale.pick region none with
  | error e =>
    have hfilter := (Locale.pick_error_iff (some f)).mpr hpick
    rw [assemble_of_partAt hkind hlimit, assemble_of_partAt hkind hlimit, hpick, hfilter]
    exact ⟨fun _ => Iff.rfl, by rintro _ _ ⟨⟩⟩
  | ok es =>
    obtain ⟨all, kept, hall, hkept, hkeeps⟩ := keepsOf_of_pick hkind hlimit f hpick
    rw [hall, hkept]
    refine ⟨fun e => ⟨by rintro ⟨⟩, by rintro ⟨⟩⟩, ?_⟩
    rintro _ _ ⟨⟩ ⟨⟩
    exact hkeeps

/-- A locale text with the key `en` twice, once written with an escape, and the key `ja` between
them. -/
def repeated : Text := "\x7b\"en\":\"a\",\"ja\":\"b\",\"\\u0065n\":[\"c\"]\x7d".toList

/-- The block of a component that holds it. -/
def repeatedBlock : Component.Block := ⟨"i18n".toList, [], repeated, 6, 41⟩

/-- The component. -/
def repeatedSource : Text := "<i18n>".toList ++ repeated ++ "</i18n>".toList

theorem repeated_filter :
    ∃ all kept : Node,
      assemble repeatedSource (.block repeatedBlock) none = .ok all ∧
      assemble repeatedSource (.block repeatedBlock) (some (.ofList ["en".toList])) = .ok kept ∧
      all.children.map Node.span = [⟨12, 15⟩, ⟨21, 24⟩, ⟨36, 39⟩] ∧
      kept.children.map Node.span = [⟨12, 15⟩, ⟨36, 39⟩] ∧
      KeepsOf repeatedSource 6 repeated (.ofList ["en".toList]) all kept := by
  have hkind : (SourceKind.block repeatedBlock).LiesAt repeatedSource 6 repeated :=
    liesAt_of_partAt ⟨"<i18n>".toList, "</i18n>".toList, rfl, rfl⟩
  have hall : (assemble repeatedSource (.block repeatedBlock) none).map
      (·.children.map Node.span) = .ok [⟨12, 15⟩, ⟨21, 24⟩, ⟨36, 39⟩] := by
    decide +kernel
  have hkept : (assemble repeatedSource (.block repeatedBlock)
      (some (.ofList ["en".toList]))).map (·.children.map Node.span)
      = .ok [⟨12, 15⟩, ⟨36, 39⟩] := by
    decide +kernel
  obtain ⟨all, hall, hallSpans⟩ := Except.exists_of_map_eq_ok hall
  obtain ⟨kept, hkept, hkeptSpans⟩ := Except.exists_of_map_eq_ok hkept
  exact ⟨all, kept, hall, hkept, hallSpans, hkeptSpans,
    (assemble_filter hkind (by decide +kernel) _).2 all kept hall hkept⟩

end LocaleStrings.Document
