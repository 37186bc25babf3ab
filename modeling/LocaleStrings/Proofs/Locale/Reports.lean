import LocaleStrings.Proofs.Document.Faults
import LocaleStrings.Proofs.Json.StrictFaults
import LocaleStrings.Proofs.Source.Lines
import LocaleStrings.Proofs.Source.Units

/-!
# The positions of reports

The strict check counts bytes. It reports the line and how many bytes of it were taken, so that a
report points just behind the byte at which the check stopped, and the position of a report is
meant to be that of this byte.

It is, unless the byte is a newline. The line that is reported then is the next one, of which
nothing was taken, and the position is its first, one character behind the newline.

* `Text.exists_lineStart`: the start of the line in which the first `i` bytes of a text end;
* `Report.StopsBehind`: a report of the first `i` bytes of a text;
* `Fault.report_stopsBehind`: the reports of the strict check are such reports;
* **`Report.StopsBehind.position_eq`**: the position of a report;
* **`Locale.pick_faultPosition`**: the position with which a locale text is refused.
-/

namespace LocaleStrings

/-! ## The start of a line -/

namespace Text

/-- Nothing, or lines each of which is ended by a newline. -/
def EndsLine (t : List Char) : Prop := t = [] ∨ ∃ s, t = s ++ ['\n']

theorem EndsLine.units {t : Text} (h : EndsLine t) : EndsLine t.units := by
  rcases h with rfl | ⟨s, rfl⟩
  · exact .inl rfl
  · exact .inr ⟨Text.units s, by rw [units_append, units_ascii (by decide)]⟩

theorem EndsLine.behind {t : Text} (h : EndsLine t) :
    Position.behind t = ⟨t.count '\n' + 1, 0⟩ := by
  rw [← Position.line_behind]
  rcases h with rfl | ⟨s, rfl⟩
  · rfl
  · rw [Position.behind_concat, Position.next, if_pos rfl]

/-- What stands behind the last newline is found from the end. -/
theorem EndsLine.takeWhile_reverse {lead tail : List Char} (h : EndsLine lead)
    (htail : '\n' ∉ tail) : (lead ++ tail).reverse.takeWhile (· != '\n') = tail.reverse := by
  rw [List.reverse_append]
  refine takeWhile_append_of_stop (bne_newline_of_not_mem ?_) fun c hc => ?_
  · rwa [List.mem_reverse]
  · rcases h with rfl | ⟨s, rfl⟩
    · cases hc
    · obtain rfl : '\n' = c := by simpa using hc
      rfl

theorem exists_endsLine (t : List Char) :
    ∃ lead line, t = lead ++ line ∧ EndsLine lead ∧ '\n' ∉ line := by
  induction t with
  | nil => exact ⟨[], [], rfl, .inl rfl, List.not_mem_nil⟩
  | cons c cs ih =>
    obtain ⟨lead, line, rfl, hlead, hline⟩ := ih
    rcases hlead with rfl | ⟨s, rfl⟩
    · by_cases hc : c = '\n'
      · exact ⟨[c], line, rfl, .inr ⟨[], by rw [hc]; rfl⟩, hline⟩
      · exact ⟨[], c :: line, rfl, .inl rfl, by simpa [hline] using Ne.symm hc⟩
    · exact ⟨c :: (s ++ ['\n']), line, rfl, .inr ⟨c :: s, rfl⟩, hline⟩

theorem size_reverse (t : Text) : size t.reverse = size t := by
  induction t with
  | nil => rfl
  | cons c cs ih =>
    rw [List.reverse_cons, size_append, ih, size_cons, size_cons, size_nil, Nat.add_zero,
      Nat.add_comm]

/-- **The start of the line in which the first `i` bytes end.** It is between two characters, even
if byte `i` is inside one: then `part` are the bytes of this character that were taken. -/
theorem exists_lineStart (text : Text) (i : Nat) :
    ∃ lead line part rest, text = lead ++ rest ∧ within i text = lead ++ line ∧ EndsLine lead ∧
      '\n' ∉ line ∧ text.units.take i = lead.units ++ (line.units ++ part) ∧
      '\n' ∉ line.units ++ part := by
  obtain ⟨after, hafter⟩ := exists_eq_within_append i text
  obtain ⟨part, htake, hpart⟩ := exists_take_units i text
  obtain ⟨lead, line, hwithin, hlead, hline⟩ := exists_endsLine (within i text)
  refine ⟨lead, line, part, line ++ after, ?_, hwithin, hlead, hline, ?_, ?_⟩
  · rw [← List.append_assoc, ← hwithin]
    exact hafter
  · rw [htake, hwithin, units_append, List.append_assoc]
  · rw [List.mem_append, not_or]
    constructor
    · rw [← List.count_eq_zero, count_units (by decide)]
      exact List.count_eq_zero.mpr hline
    · intro hmem
      exact absurd (hpart _ hmem) (by decide)

/-- The bytes of a line that were taken are bytes of the whole line. -/
theorem length_le_size_firstLine {rest : Text} {tail more : List Char}
    (h : rest.units = tail ++ more) (htail : '\n' ∉ tail) :
    tail.length ≤ size (firstLine rest) := by
  have hclass : AsciiClass (· != '\n') := (AsciiClass.beq (x := '\n') (by decide)).not
  rw [firstLine, ← length_units, ← hclass.takeWhile_units, h,
    List.takeWhile_append_of_pos (bne_newline_of_not_mem htail), List.length_append]
  exact Nat.le_add_right _ _

end Text

/-! ## Reports of a number of bytes -/

namespace Json.Strict

open Text (EndsLine exists_lineStart)

/-- The report is about the first `i` bytes of the text: its line counts the newlines among them,
and its column the bytes behind the last of these newlines. -/
structure Report.StopsBehind (r : Report) (text : Text) (i : Nat) : Prop where
  line_eq : r.line = 1 + (text.units.take i).count '\n'
  column_eq : r.column = ((text.units.take i).reverse.takeWhile (· != '\n')).length

theorem sizeOfLastLine_append {lead line : Text} (h : EndsLine lead) (hline : '\n' ∉ line) :
    sizeOfLastLine (lead ++ line) = Text.size line := by
  rw [sizeOfLastLine, h.takeWhile_reverse hline, Text.size_reverse]

/-- **A fault is reported by the bytes that were taken.** -/
theorem Fault.report_stopsBehind (text : Text) (f : Fault) :
    (f.report text).StopsBehind text f.taken := by
  obtain ⟨lead, line, part, rest, -, hwithin, hlead, hline, htake, htail⟩ :=
    exists_lineStart text f.taken
  constructor
  · show (Text.within f.taken text).count '\n' + 1 = _
    rw [hwithin, htake, List.count_append, List.count_append, Text.count_units (by decide),
      List.count_eq_zero_of_not_mem hline, List.count_eq_zero_of_not_mem htail, Nat.add_comm]
  · have hlength := congrArg List.length htake
    simp only [List.length_take, List.length_append, Text.length_units] at hlength
    show sizeOfLastLine (Text.within f.taken text)
      + (min f.taken (Text.size text) - Text.size (Text.within f.taken text)) = _
    rw [hwithin, htake, hlead.units.takeWhile_reverse htail, sizeOfLastLine_append hlead hline]
    simp only [Text.size_append, List.length_reverse, List.length_append, Text.length_units]
    omega

/-- The offset to which the report of `i` bytes leads: that of the last one of them, unless it is a
newline. -/
def reportedOffset (text : Text) (i : Nat) : Nat :=
  if text.units[i - 1]? = some '\n' then i else i - 1

theorem eq_size_add_of_take {text lead : Text} {tail : List Char} {i : Nat}
    (hi : i ≤ Text.size text) (htake : text.units.take i = lead.units ++ tail) :
    i = Text.size lead + tail.length := by
  have hlength := congrArg List.length htake
  rw [List.length_take, Text.length_units, List.length_append, Text.length_units] at hlength
  omega

/-- The last one of the first `i` bytes of a text is a newline exactly if nothing of the line in
which they end was taken. -/
theorem newline_iff_of_take {text lead : Text} {tail : List Char} {i : Nat} (hpos : 1 ≤ i)
    (hi : i ≤ Text.size text) (hlead : EndsLine lead)
    (htake : text.units.take i = lead.units ++ tail) (htail : '\n' ∉ tail) :
    text.units[i - 1]? = some '\n' ↔ tail = [] := by
  have hlast : text.units[i - 1]? = (lead.units ++ tail).getLast? := by
    rw [← htake, List.getLast?_eq_getElem?, List.length_take, Text.length_units,
      Nat.min_eq_left hi, List.getElem?_take_of_lt (by omega)]
  rw [hlast]
  constructor
  · intro h
    by_contra hne
    rw [List.getLast?_append_of_ne_nil _ hne] at h
    exact htail (List.mem_of_getLast? h)
  · rintro rfl
    have hlength := eq_size_add_of_take hi htake
    rcases hlead with rfl | ⟨s, rfl⟩
    · simp only [Text.size_nil, List.length_nil] at hlength
      omega
    · rw [List.append_nil, Text.units_append, Text.units_ascii (by decide), List.getLast?_concat]

section Position

variable {r : Report} {text : Text} {i : Nat}

/-- The position of a report is found from the start of its line: one byte back from what was taken
of the line, if anything was. -/
theorem Report.StopsBehind.position_of_take (h : r.StopsBehind text i)
    (hline : r.line < Word.limit) {lead rest : Text} {tail : List Char}
    (htext : text = lead ++ rest) (hlead : EndsLine lead)
    (htake : text.units.take i = lead.units ++ tail) (htail : '\n' ∉ tail) :
    r.position text = locate text (Text.size lead + (tail.length - 1)) := by
  have hlines : r.line = lead.count '\n' + 1 := by
    rw [h.line_eq, htake, List.count_append, Text.count_units (by decide),
      List.count_eq_zero_of_not_mem htail, Nat.add_zero, Nat.add_comm]
  have hcolumn : r.column = tail.length := by
    rw [h.column_eq, htake, hlead.units.takeWhile_reverse htail, List.length_reverse]
  have hstart : offsetOf? text ⟨Word.truncate r.line, 0⟩ = some (Text.size lead) := by
    rw [Word.truncate_of_lt hline, hlines, ← hlead.behind, htext]
    exact offsetOf?_behind lead rest
  have hcut : Text.splitAt? (Text.size lead) text = some (lead, rest) := by
    rw [htext]
    exact Text.splitAt?_size lead rest
  -- what was taken of the line does not reach its end, so the report is not cut there
  have hunits : lead.units ++ rest.units = lead.units ++ (tail ++ text.units.drop i) := by
    rw [← List.append_assoc, ← htake, List.take_append_drop, ← Text.units_append, ← htext]
  have hbound := Text.length_le_size_firstLine (List.append_cancel_left hunits) htail
  rw [Report.position_eq]
  simp only [hstart, Option.getD_some, hcut, hcolumn]
  rw [Nat.min_eq_left (by omega)]

/-- **The position of a report** is that of the last byte that was taken. If this is a newline, it
is the position behind it. -/
theorem Report.StopsBehind.position_eq (h : r.StopsBehind text i) (hi : i ≤ Text.size text)
    (hline : r.line < Word.limit) : r.position text = locate text (reportedOffset text i) := by
  obtain ⟨lead, line, part, rest, htext, -, hlead, -, htake, htail⟩ := exists_lineStart text i
  generalize line.units ++ part = tail at htake htail
  have hlength := eq_size_add_of_take hi htake
  rw [h.position_of_take hline htext hlead htake htail]
  congr 1
  unfold reportedOffset
  by_cases hpos : 1 ≤ i
  · have hiff := newline_iff_of_take hpos hi hlead htake htail
    split_ifs with hnewline
    · rw [hlength, hiff.mp hnewline]
      rfl
    · have := List.length_pos_iff.mpr (mt hiff.mpr hnewline)
      omega
  · split_ifs <;> omega

end Position

/-! ## The byte and its position -/

theorem line_locate {text : Text} (hlines : text.count '\n' + 1 < Word.limit) (n : Nat) :
    (locate text n).line = (Text.within n text).count '\n' + 1 := by
  obtain ⟨rest, hrest⟩ := Text.exists_eq_within_append n text
  have hcount := congrArg (List.count '\n') hrest
  rw [List.count_append] at hcount
  show Word.truncate (Position.behind (Text.within n text)).line = _
  rw [Position.line_behind, Word.truncate_of_lt (by omega)]

/-- **The position of a report is that of the last byte exactly if this byte is no newline.** -/
theorem locate_reportedOffset_eq_iff {text : Text} (hlines : text.count '\n' + 1 < Word.limit)
    {i : Nat} (hpos : 1 ≤ i) (hi : i ≤ Text.size text) :
    locate text (reportedOffset text i) = locate text (i - 1) ↔
      text.units[i - 1]? ≠ some '\n' := by
  unfold reportedOffset
  constructor
  · intro h hnewline
    rw [if_pos hnewline] at h
    obtain ⟨lead, line, part, rest, htext, -, hlead, -, htake, htail⟩ := exists_lineStart text i
    have hlength := eq_size_add_of_take hi htake
    rw [(newline_iff_of_take hpos hi hlead htake htail).mp hnewline, List.length_nil,
      Nat.add_zero] at hlength
    rcases hlead with rfl | ⟨s, rfl⟩
    · rw [Text.size_nil] at hlength
      omega
    · -- the newline is on the line before the one that is reported
      have hbefore : i - 1 = Text.size s := by
        rw [hlength, Text.size_append]
        rfl
      have hline := congrArg Position.line h
      rw [line_locate hlines, line_locate hlines, hbefore, hlength, htext,
        Text.within_size_append, List.append_assoc, Text.within_size_append, List.count_append,
        List.count_singleton_self] at hline
      omega
  · intro h
    rw [if_neg h]

end Json.Strict

/-! ## Locale texts that are refused -/

namespace Locale

open Json (Strict.Report Strict.check Strict.reportedOffset Strict.Embeds Lenient.Fault Value)

/-- The entries that a filter keeps of a text that was checked and read with the given outcomes. -/
def pickFrom (text : Text) (filter : Option LocaleFilter) (checked : Except Strict.Report Unit)
    (found : Except Lenient.Fault (Option Value)) : Except ParseError (List Entry) :=
  (pickWith (.reporting checked found) text filter).run

theorem pick_eq_from (text : Text) (filter : Option LocaleFilter) :
    pick text filter = pickFrom text filter (Strict.check text) (Json.Lenient.read text) := rfl

/-- **A locale text that is no JSON is refused with the position of the byte at which the check
stopped**, or, if this byte is a newline, with the position behind it. The check does stop in the
text, unless it is an embedded text that it refuses. -/
theorem pick_faultPosition {text : Text} (hlines : text.count '\n' + 1 < Word.limit)
    (filter : Option LocaleFilter) :
    (∀ i (r : Strict.Report) found, 1 ≤ i → i ≤ Text.size text → r.StopsBehind text i →
      pickFrom text filter (.error r) found = .error (.invalidJson r.reason.message
        (locate text (Strict.reportedOffset text i))) ∧
      (locate text (Strict.reportedOffset text i) = locate text (i - 1) ↔
        text.units[i - 1]? ≠ some '\n')) ∧
    ∀ r, Strict.check text = .error r →
      (∃ i ≤ Text.size text, r.StopsBehind text i ∧
        pick text filter = .error (.invalidJson r.reason.message
          (locate text (Strict.reportedOffset text i)))) ∨
      ∃ embedded, Strict.Embeds text embedded ∧ Strict.check embedded = .error r := by
  have hrefused : ∀ i (r : Strict.Report) found, i ≤ Text.size text → r.StopsBehind text i →
      pickFrom text filter (.error r) found = .error (.invalidJson r.reason.message
        (locate text (Strict.reportedOffset text i))) := by
    intro i r found hi hr
    have hline : r.line < Word.limit := by
      have hcount := (List.take_sublist i text.units).count_le '\n'
      rw [Text.count_units (by decide)] at hcount
      rw [hr.line_eq]
      omega
    rw [← hr.position_eq hi hline]
    rfl
  refine ⟨fun i r found hpos hi hr => ?_, fun r hcheck => ?_⟩
  · exact ⟨hrefused i r found hi hr, Json.Strict.locate_reportedOffset_eq_iff hlines hpos hi⟩
  · rcases Json.Strict.report_of_check hcheck with ⟨fault, htaken, rfl⟩ | hembedded
    · have hstops := fault.report_stopsBehind text
      refine .inl ⟨fault.taken, htaken, hstops, ?_⟩
      rw [pick_eq_from, hcheck]
      exact hrefused _ _ _ htaken hstops
    · obtain ⟨embedded, hembeds, -, hrefuses⟩ := hembedded
      exact .inr ⟨embedded, hembeds, hrefuses⟩

/-- A text with a character of three bytes where a value should be. -/
def misplacedValue : Text := "\x7b\"ja\":朝\x7d".toList

/-- The check stops behind the first byte of the character. -/
theorem misplacedValue_faultPosition :
    misplacedValue.count '\n' + 1 < Word.limit ∧
    Strict.check misplacedValue = .error ⟨.expectedValue, 1, 7⟩ ∧
    (⟨.expectedValue, 1, 7⟩ : Strict.Report).StopsBehind misplacedValue 7 ∧
    pick misplacedValue none = .error (.invalidJson "expected value" (locate misplacedValue 6)) ∧
    ∃ i ≤ Text.size misplacedValue,
      (⟨.expectedValue, 1, 7⟩ : Strict.Report).StopsBehind misplacedValue i ∧
      pick misplacedValue none = .error (.invalidJson "expected value"
        (locate misplacedValue (Strict.reportedOffset misplacedValue i))) := by
  have hlines : misplacedValue.count '\n' + 1 < Word.limit := by decide +kernel
  have hcheck : Strict.check misplacedValue = .error ⟨.expectedValue, 1, 7⟩ := by decide +kernel
  have hstops : (⟨.expectedValue, 1, 7⟩ : Strict.Report).StopsBehind misplacedValue 7 :=
    ⟨by decide +kernel, by decide +kernel⟩
  have hkey : ¬ ∃ t ∈ (Json.Strict.tokens (.start misplacedValue)).1,
      t.kind = .string Json.Strict.embeddedKey := by decide +kernel
  obtain ⟨hreports, hrefused⟩ := pick_faultPosition hlines none
  obtain ⟨hpick, hsame⟩ := hreports 7 _ (Json.Lenient.read misplacedValue) (by decide)
    (by decide +kernel) hstops
  refine ⟨hlines, hcheck, hstops, ?_, ?_⟩
  · rw [pick_eq_from, hcheck, hpick, hsame.mpr (by decide +kernel)]
    rfl
  · rcases hrefused _ hcheck with hinside | ⟨embedded, hembeds, -⟩
    · exact hinside
    · exact absurd hembeds.1 hkey

/-- A string that goes on in the next line. -/
def brokenString : Text := "\x7b\"en\":\"a\nb\"\x7d".toList

/-- The check stops behind the newline, which is byte 8, but the position is not that of byte 8. -/
theorem brokenString_behind_newline :
    Strict.check brokenString = .error ⟨.controlCharacter, 2, 0⟩ ∧
    (⟨.controlCharacter, 2, 0⟩ : Strict.Report).StopsBehind brokenString 9 ∧
    brokenString.units[9 - 1]? = some '\n' ∧ locate brokenString (9 - 1) = ⟨1, 8⟩ ∧
    pick brokenString none
      = .error (.invalidJson Json.Strict.Reason.controlCharacter.message ⟨2, 0⟩) := by
  refine ⟨by decide +kernel, ⟨by decide +kernel, by decide +kernel⟩, by decide +kernel,
    by decide +kernel, ?_⟩
  refine Except.eq_error_of_map_eq_error (f := fun _ => ()) ?_
  decide +kernel

end Locale

end LocaleStrings
