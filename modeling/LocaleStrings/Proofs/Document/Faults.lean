import LocaleStrings.Proofs.Document.Anchored
import LocaleStrings.Proofs.Source.Order

/-!
# The places of faults

A locale text that is no JSON is reported with a position. The strict check reports a line and a
number of bytes, the lenient reader an offset, and both know the locale text only. What is reported
in the end is a position of the source.

* `Reading.reporting`, `Document.assembleFrom`: reading and assembling when the outcomes of the
  check and of the reader are given;
* `Document.assembleFrom_of_invalid`: a position of the locale text becomes one of the source;
* **`Document.assemble_fault_inside`**: a fault is reported inside the locale text, whatever the
  check and the reader report.
-/

namespace LocaleStrings

open Json (Strict.Report Lenient.Fault Value)

/-! ## Given outcomes of both readers -/

/-- Reads every text with the same given outcomes of the check and of the reader. -/
def Reading.reporting (checked : Except Strict.Report Unit)
    (found : Except Lenient.Fault (Option Value)) : Reading Id :=
  ⟨.truncating, fun _ => checked, fun _ => found⟩

namespace Document

/-- The document of a source whose locale text was checked and read with the given outcomes. -/
def assembleFrom (source : Text) (kind : SourceKind) (filter : Option LocaleFilter)
    (checked : Except Strict.Report Unit) (found : Except Lenient.Fault (Option Value)) :
    Except Failure Node :=
  (assembleWith (.reporting checked found) source kind filter).run

variable {source region : Text} {o : Nat} {kind : SourceKind}

theorem assembleFrom_eq (hkind : kind.LiesAt source o region) (filter : Option LocaleFilter)
    (checked : Except Strict.Report Unit) (found : Except Lenient.Fault (Option Value)) :
    assembleFrom source kind filter checked found
      = ofEntries source region (.ofOffset source o)
          (Locale.pickWith (.reporting checked found) region filter).run := by
  have h : assembleFrom source kind filter checked found
      = ofEntries source (kind.region source).1 (kind.region source).2
          (Locale.pickWith (.reporting checked found) (kind.region source).1 filter).run := rfl
  rwa [hkind.2] at h

/-- The document of a source is the one for the outcomes on its locale text. -/
theorem assemble_eq_from (hkind : kind.LiesAt source o region) (filter : Option LocaleFilter) :
    assemble source kind filter
      = assembleFrom source kind filter (Json.Strict.check region) (Json.Lenient.read region) := by
  rw [assembleFrom_eq hkind, assemble_eq, hkind.2]
  rfl

/-! ## From the locale text to the source -/

theorem ofParseError_locate (hregion : Text.PartAt source o region)
    (hsize : Text.size source + 2 < Word.limit) (detail : String) (k : Nat) :
    Failure.ofParseError (.ofOffset source o) (.invalidJson detail (locate region k))
      = .parse (.invalidJson detail (locate source (o + min k (Text.size region)))) := by
  unfold Failure.ofParseError
  simp only [ParseError.anchored, Anchor.compose_locate hregion hsize k, Except.map]

section Region

variable (hkind : kind.LiesAt source o region) (hsize : Text.size source + 2 < Word.limit)
  (filter : Option LocaleFilter) {checked : Except Strict.Report Unit}
  {found : Except Lenient.Fault (Option Value)}

include hkind hsize

/-- **A position of the locale text becomes one of the source**, inside the locale text. -/
theorem assembleFrom_of_invalid {detail : String} {k : Nat}
    (h : (Locale.valueWith (.reporting checked found) region).run
      = .error (.invalidJson detail (locate region k))) :
    ∃ p, assembleFrom source kind filter checked found = .error (.parse (.invalidJson detail p)) ∧
      p.Inside source o (o + Text.size region) := by
  refine ⟨_, ?_, locate_inside hkind.1 (by omega) (Nat.min_le_right k _)⟩
  have hpick : (Locale.pickWith (.reporting checked found) region filter).run
      = .error (.invalidJson detail (locate region k)) := by
    simp only [Locale.pickWith, Locale.entriesWith, Id.run_bind, Id.run_pure, h]
    rfl
  rw [assembleFrom_eq hkind, hpick, ofEntries_error, ofParseError_locate hkind.1 hsize]

omit hsize in
/-- A value that was read is no reason to report a text as no JSON. -/
theorem assembleFrom_ne_invalid (value : Option Value) (detail : String) (p : Position) :
    assembleFrom source kind filter (.ok ()) (.ok value)
      ≠ .error (.parse (.invalidJson detail p)) := by
  have hpick : (∃ kept, (Locale.pickWith (.reporting (.ok ()) (.ok value)) region filter).run
        = .ok kept) ∨
      ∃ what, (Locale.pickWith (.reporting (.ok ()) (.ok value)) region filter).run
        = .error (.notAnObject what) := by
    rcases value with _ | v
    · exact .inr ⟨_, rfl⟩
    · cases v with
      | object members => exact .inl ⟨_, rfl⟩
      | null | boolean | number | string | array => exact .inr ⟨_, rfl⟩
  rw [assembleFrom_eq hkind]
  rcases hpick with ⟨kept, hkept⟩ | ⟨what, hwhat⟩
  · rw [hkept, ofEntries_ok]
    cases liftAll (.ofOffset source o) region (Locale.literals kept) with
    | ok paragraphs => rintro ⟨⟩
    | error overflow => rintro ⟨⟩
  · rw [hwhat]
    rintro ⟨⟩

theorem inside_of_assembleFrom {detail : String} {p : Position}
    (h : assembleFrom source kind filter checked found = .error (.parse (.invalidJson detail p))) :
    p.Inside source o (o + Text.size region) := by
  have hinvalid : ∀ {detail' : String} {k : Nat},
      (Locale.valueWith (.reporting checked found) region).run
        = .error (.invalidJson detail' (locate region k)) →
      p.Inside source o (o + Text.size region) := by
    intro detail' k hvalue
    obtain ⟨q, hq, hinside⟩ := assembleFrom_of_invalid hkind hsize filter hvalue
    obtain ⟨-, rfl⟩ : detail' = detail ∧ q = p := by simpa using hq.symm.trans h
    exact hinside
  cases checked with
  | error report => exact hinvalid rfl
  | ok =>
    cases found with
    | error fault => exact hinvalid rfl
    | ok value => exact absurd h (assembleFrom_ne_invalid hkind filter value detail p)

end Region

/-- **A fault of a locale text is reported inside it.** The position is that of a character
boundary of the source, from the start of the locale text to its end, and leads back to it. It is
so whatever line and column the strict check reports, and whatever offset the lenient reader does:
any such report ends in a position like that. -/
theorem assemble_fault_inside (hkind : kind.LiesAt source o region)
    (hsize : Text.size source < Word.limit - 2) (filter : Option LocaleFilter) :
    (∀ detail p, assemble source kind filter = .error (.parse (.invalidJson detail p)) →
      p.Inside source o (o + Text.size region)) ∧
    (∀ report found, ∃ p,
      assembleFrom source kind filter (.error report) found
        = .error (.parse (.invalidJson report.reason.message p)) ∧
      p.Inside source o (o + Text.size region)) ∧
    ∀ fault, ∃ p,
      assembleFrom source kind filter (.ok ()) (.error fault)
        = .error (.parse (.invalidJson fault.problem.message p)) ∧
      p.Inside source o (o + Text.size region) := by
  have hlimit : Text.size source + 2 < Word.limit := by omega
  refine ⟨fun detail p h => ?_, fun report found => ?_, fun fault => ?_⟩
  · rw [assemble_eq_from hkind] at h
    exact inside_of_assembleFrom hkind hlimit filter h
  · exact assembleFrom_of_invalid hkind hlimit filter rfl
  · exact assembleFrom_of_invalid hkind hlimit filter rfl

/-- A component with a character of three bytes where a value should be. -/
def misplaced : Text := "朝<i18n>\n\x7b\"ja\": 朝\x7d</i18n>".toList

/-- Its block. -/
def misplacedBlock : Component.Block :=
  ⟨"i18n".toList, [], "\n\x7b\"ja\": 朝\x7d".toList, 9, 21⟩

/-- The check stops inside the character. A report of a line that the block does not have leads to
a position of the block as well. -/
theorem misplaced_fault_inside :
    Component.i18nBlock? misplaced = some misplacedBlock ∧
    assemble misplaced (.block misplacedBlock) none
      = .error (.parse (.invalidJson "expected value" ⟨2, 7⟩)) ∧
    (⟨2, 7⟩ : Position).Inside misplaced 9 21 ∧
    ∃ p, assembleFrom misplaced (.block misplacedBlock) none
        (.error ⟨.trailingComma, 5000000000, 3⟩) (.ok none)
        = .error (.parse (.invalidJson "trailing comma" p)) ∧
      p.Inside misplaced 9 21 := by
  have hblock : Component.i18nBlock? misplaced = some misplacedBlock := by decide +kernel
  have hfails : assemble misplaced (.block misplacedBlock) none
      = .error (.parse (.invalidJson "expected value" ⟨2, 7⟩)) := by
    refine Except.eq_error_of_map_eq_error (f := fun _ => ()) ?_
    decide +kernel
  obtain ⟨hinside, hreport, -⟩ :=
    assemble_fault_inside (liesAt_block hblock) (by decide +kernel) none
  exact ⟨hblock, hfails, hinside _ _ hfails, hreport _ _⟩

end Document

end LocaleStrings
