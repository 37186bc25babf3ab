import LocaleStrings.Proofs.Document.Faults
import LocaleStrings.Proofs.Json.StrictFaults

/-!
# Counts on the way to a document

Offsets, lines and columns are counted without limit and then narrowed to 32 bits. Narrowing cuts
silently, so a run says nothing about what was lost. Here the narrowing of the whole parse is a
parameter: one that refuses what it would have to cut shows whether anything was.

* `Narrowing.lossy` cuts the counts that do not fit into 32 bits, `Narrowing.lossless` refuses to;
* `Parser.parseBy`: the parse with every count narrowed in a given way;
* `Json.Strict.line_le_of_check`: a reported line is one of the text, or of a shorter text in it;
* **`Parser.parseBy_eq`**: no count exceeds the size of the source by more than one;
* **`Parser.parse_exact`**: below the limit no count is cut, and no sum or difference overflows.
-/

namespace LocaleStrings

open Json (StringLiteral)

namespace Narrowing

/-- Keeps the low bits of every count. -/
def lossy : Narrowing Option := fun n => some (Word.truncate n)

/-- Refuses the counts that do not fit. -/
def lossless : Narrowing Option := fun n => if n < Word.limit then some n else none

/-- Narrows the counts up to a bound, and in the same way as `lossy`. -/
def Takes (f : Narrowing Option) (bound : Nat) : Prop := ∀ n ≤ bound, f n = some (Word.truncate n)

theorem lossy_takes (bound : Nat) : lossy.Takes bound := fun _ _ => rfl

theorem lossless_takes {bound : Nat} (h : bound < Word.limit) : lossless.Takes bound := by
  intro n hn
  have hlt : n < Word.limit := by omega
  rw [lossless, if_pos hlt, Word.truncate_of_lt hlt]

end Narrowing

/-- Reads texts with the check and the reader of this library, and counts narrowed by `f`. -/
def Reading.narrowing (f : Narrowing Option) : Reading Option :=
  ⟨f, Json.Strict.check, Json.Lenient.read⟩

/-- The document of a source, with every offset, line and column narrowed by `f`. -/
def Parser.parseBy (f : Narrowing Option) (p : Parser) (source : Text) :
    Option (Except Document.Failure Node) :=
  p.parseWith (.narrowing f) source

/-! ## The line of a report -/

namespace Json.Strict

theorem length_within_le (n : Nat) (text : Text) : (Text.within n text).length ≤ text.length := by
  obtain ⟨rest, hrest⟩ := Text.exists_eq_within_append n text
  have hlength := congrArg List.length hrest
  rw [List.length_append] at hlength
  omega

theorem line_report_le (text : Text) (fault : Fault) :
    (fault.report text).line ≤ text.length + 1 := by
  have hcount : (Text.within fault.taken text).count '\n' ≤ (Text.within fault.taken text).length :=
    List.count_le_length
  have hlength := length_within_le fault.taken text
  show (Text.within fault.taken text).count '\n' + 1 ≤ text.length + 1
  omega

/-- **A reported line is at most one more than the characters of the text.** The line may be one of
an embedded text, which is shorter. -/
theorem line_le_of_check {text : Text} {r : Report} (h : check text = .error r) :
    r.line ≤ text.length + 1 := by
  induction hn : text.length using Nat.strong_induction_on generalizing text with
  | _ n ih =>
    subst hn
    rcases report_of_check h with ⟨fault, -, rfl⟩ | ⟨embedded, -, hlength, hcheck⟩
    · exact line_report_le text fault
    · have := ih _ hlength hcheck rfl
      omega

end Json.Strict

/-! ## No count exceeds the size of the source by more than one -/

section Takes

variable {f : Narrowing Option} {bound : Nat} (hf : f.Takes bound)

include hf

theorem locateBy_eq {text : Text} (h : Text.size text + 1 ≤ bound) (k : Nat) :
    locateBy f text k = some (locate text k) := by
  obtain ⟨rest, hrest⟩ := Text.exists_eq_within_append k text
  have hsize := congrArg Text.size hrest
  rw [Text.size_append] at hsize
  have hle := Position.behind_le (Text.within k text)
  unfold locateBy Position.narrowBy
  rw [hf _ (by omega), hf _ (by omega)]
  rfl

theorem locateSpanBy_eq {text : Text} (h : Text.size text + 1 ≤ bound) (s : Span) :
    locateSpanBy f text s = some (locateSpan text s) := by
  unfold locateSpanBy
  rw [locateBy_eq hf h, locateBy_eq hf h]
  rfl

theorem ofOffsetsBy_eq {start stop : Nat} (hstart : start ≤ bound) (hstop : stop ≤ bound) :
    Span.ofOffsetsBy f start stop = some (Span.ofOffsets start stop) := by
  unfold Span.ofOffsetsBy
  rw [hf _ hstart, hf _ hstop]
  rfl

theorem positionBy_eq {text : Text} (h : Text.size text + 1 ≤ bound) {r : Json.Strict.Report}
    (hr : r.line ≤ bound) : r.positionBy f text = some (r.position text) := by
  unfold Json.Strict.Report.positionBy
  rw [hf _ hr]
  exact locateBy_eq hf h _

theorem pickWith_eq {text : Text} (h : Text.size text + 1 ≤ bound) (filter : Option LocaleFilter) :
    Locale.pickWith (.narrowing f) text filter = some (Locale.pick text filter) := by
  have hvalue : Locale.valueWith (.narrowing f) text = some (Locale.value? text) := by
    rw [Locale.value?_eq, Locale.valueWith, Reading.narrowing]
    dsimp only
    cases hcheck : Json.Strict.check text with
    | error report =>
      have hline := Json.Strict.line_le_of_check hcheck
      have hlength := Text.length_le_size text
      simp only [positionBy_eq hf h (show report.line ≤ bound by omega)]
      rfl
    | ok =>
      cases hread : Json.Lenient.read text with
      | error fault =>
        simp only [locateBy_eq hf h]
        rfl
      | ok value => rfl
  rw [Locale.pickWith, Locale.entriesWith, hvalue]
  rfl

namespace Document

theorem liftBy_eq {region : Text} (h : Text.size region + 1 ≤ bound) (anchor : Anchor)
    {s : StringLiteral} (hs : s.stop ≤ Text.size region) :
    liftBy f s anchor region = some (lift s anchor region) := by
  have hstart : s.start ≤ s.stop := Nat.le_add_right _ _
  unfold liftBy Leaf.liftBy
  rw [ofOffsetsBy_eq hf (by omega) (by omega)]
  simp only [Option.bind_eq_bind, Option.bind_some, locateSpanBy_eq hf h]
  rfl

theorem liftAllBy_eq {region : Text} (h : Text.size region + 1 ≤ bound) (anchor : Anchor)
    {ss : List StringLiteral} (hss : ∀ s ∈ ss, s.stop ≤ Text.size region) :
    liftAllBy f anchor region ss = some (liftAll anchor region ss) := by
  induction ss with
  | nil => rfl
  | cons s ss ih =>
    rw [liftAllBy, liftBy_eq hf h anchor (hss s List.mem_cons_self),
      ih fun s hs => hss s (List.mem_cons_of_mem _ hs)]
    rfl

theorem regionBy_block {source : Text} {b : Component.Block}
    (hb : Text.PartAt source b.start b.content) (h : Text.size source + 1 ≤ bound) :
    (SourceKind.block b).regionBy f source = some ((SourceKind.block b).region source) := by
  have hend := hb.add_size_le
  have hanchor : Anchor.ofOffsetBy f source b.start = some (.ofOffset source b.start) := by
    unfold Anchor.ofOffsetBy
    rw [hf _ (by omega), locateBy_eq hf h]
    rfl
  simp only [SourceKind.regionBy, hanchor]
  rfl

theorem ofEntriesBy_eq {source region : Text} (hregion : Text.size region + 1 ≤ bound)
    (hsource : Text.size source + 1 ≤ bound) (anchor : Anchor) {kept : List Locale.Entry}
    (hkept : ∀ s ∈ Locale.literals kept, s.stop ≤ Text.size region) :
    ofEntriesBy f source region anchor (.ok kept)
      = some (ofEntries source region anchor (.ok kept)) := by
  simp only [ofEntriesBy, Option.bind_eq_bind, Option.bind_some, liftAllBy_eq hf hregion anchor hkept,
    ofOffsetsBy_eq hf (Nat.zero_le bound) (show Text.size source ≤ bound by omega),
    locateSpanBy_eq hf hsource]
  rfl

theorem assembleWith_eq {source region : Text} {o : Nat} {kind : SourceKind}
    (hkind : kind.LiesAt source o region)
    (hregion : kind.regionBy f source = some (kind.region source))
    (h : Text.size source + 1 ≤ bound) (filter : Option LocaleFilter) :
    assembleWith (.narrowing f) source kind filter = some (assemble source kind filter) := by
  have hend := hkind.1.add_size_le
  have hbound : Text.size region + 1 ≤ bound := by omega
  have hnarrow : (Reading.narrowing f).narrow = f := rfl
  rw [assembleWith, hnarrow, hregion, assemble_eq, hkind.2]
  simp only [Option.bind_eq_bind, Option.bind_some, pickWith_eq hf hbound]
  cases hpick : Locale.pick region filter with
  | error e => rfl
  | ok kept =>
    have hstop : ∀ s ∈ Locale.literals kept, s.stop ≤ Text.size region :=
      fun s hs => (Locale.partAt_of_pick hpick s hs).add_size_le
    exact ofEntriesBy_eq hf hbound h _ hstop

end Document

end Takes

/-- **No count exceeds the size of the source by more than one.** Whatever a narrowing does with
counts beyond, the parse is the same. -/
theorem Parser.parseBy_eq (p : Parser) {source : Text} {f : Narrowing Option}
    (hf : f.Takes (Text.size source + 1)) : p.parseBy f source = some (p.parse source) := by
  cases p with
  | json => exact Document.assembleWith_eq hf (Document.liesAt_plain source) rfl (Nat.le_refl _) none
  | component filter =>
    rw [Parser.parse_component]
    unfold Parser.parseBy Parser.parseWith
    cases hb : Component.i18nBlock? source with
    | none => rfl
    | some b =>
      exact Document.assembleWith_eq hf (Document.liesAt_block hb)
        (Document.regionBy_block hf (Component.i18nBlock?_partAt hb) (Nat.le_refl _))
        (Nat.le_refl _) filter

/-! ## No sum or difference overflows -/

theorem Document.assemble_ends {source region : Text} {o : Nat} {kind : SourceKind}
    (hkind : kind.LiesAt source o region) (hsize : Text.size source + 2 < Word.limit)
    (filter : Option LocaleFilter) :
    (∃ doc, assemble source kind filter = .ok doc) ∨
      ∃ e, assemble source kind filter = .error (.parse e) := by
  rw [assemble_of_partAt hkind hsize]
  rcases Locale.pick_cases region filter with ⟨-, detail, k, hpick⟩ | ⟨-, -, found, hpick⟩ |
    ⟨-, ts, ms, -, -, hpick⟩
  · rw [hpick]
    exact .inr ⟨_, congrArg Except.error (ofParseError_locate hkind.1 hsize detail k)⟩
  · rw [hpick]
    exact .inr ⟨_, rfl⟩
  · rw [hpick]
    exact .inl ⟨_, rfl⟩

theorem Parser.parse_ends (p : Parser) {source : Text} (hsize : Text.size source + 2 < Word.limit) :
    (∃ doc, p.parse source = .ok doc) ∨ ∃ e, p.parse source = .error (.parse e) := by
  cases p with
  | json => exact Document.assemble_ends (Document.liesAt_plain source) hsize none
  | component filter =>
    rw [Parser.parse_component]
    cases hb : Component.i18nBlock? source with
    | none => exact .inl ⟨_, rfl⟩
    | some b => exact Document.assemble_ends (Document.liesAt_block hb) hsize filter

/-- **Below the limit the counts of a parse are exact.** The parse that cuts counts is the parse of
every source. In a source of fewer than 2³² - 2 bytes the parse that refuses to cut one goes
through and ends in the same way, and no sum or difference on the way leaves the 32 bits: the end
is a document, or an error of the locale text. -/
theorem Parser.parse_exact (p : Parser) (source : Text) :
    p.parseBy .lossy source = some (p.parse source) ∧
    (Text.size source < Word.limit - 2 →
      p.parseBy .lossless source = some (p.parse source) ∧
      ((∃ doc, p.parse source = .ok doc) ∨ ∃ e, p.parse source = .error (.parse e))) := by
  refine ⟨p.parseBy_eq (Narrowing.lossy_takes _), fun hsize => ?_⟩
  have hlimit : Text.size source + 2 < Word.limit := by omega
  exact ⟨p.parseBy_eq (Narrowing.lossless_takes (by omega)), p.parse_ends hlimit⟩

/-- Both ends occur, and nothing is lost on the way to either. -/
theorem morning_unfinished_exact :
    (∃ doc, (Parser.component none).parseBy .lossless morning = some (.ok doc) ∧
      doc.children.map Node.span = [⟨18, 23⟩]) ∧
    (Parser.component none).parseBy .lossless unfinished
      = some (.error (.parse (.invalidJson "expected value" ⟨2, 15⟩))) := by
  constructor
  · have hspans : ((Parser.component none).parse morning).map (·.children.map Node.span)
        = .ok [⟨18, 23⟩] := by
      decide +kernel
    obtain ⟨doc, hdoc, hchildren⟩ := Except.exists_of_map_eq_ok hspans
    obtain ⟨hexact, -⟩ := (Parser.parse_exact (.component none) morning).2 (by decide +kernel)
    exact ⟨doc, by rw [hexact, hdoc], hchildren⟩
  · have hfails : (Parser.component none).parse unfinished
        = .error (.parse (.invalidJson "expected value" ⟨2, 15⟩)) := by
      refine Except.eq_error_of_map_eq_error (f := fun _ => ()) ?_
      decide +kernel
    obtain ⟨hexact, -⟩ := (Parser.parse_exact (.component none) unfinished).2 (by decide +kernel)
    rw [hexact, hfails]

end LocaleStrings
