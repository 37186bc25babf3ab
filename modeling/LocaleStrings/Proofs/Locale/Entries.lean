import LocaleStrings.Locale.Entry
import LocaleStrings.Proofs.Json.LenientRead
import LocaleStrings.Proofs.Json.StrictCheck
import Mathlib.Data.List.Flatten

/-!
# The entries of a locale text and the grammar

A text is checked strictly and then read leniently. The second reading cannot fail: what the check
accepts is read as the value that the text stands for.

* `value?_of_accepted`, `value?_of_not_accepted`: an accepted text has its value, and every other
  one is reported with a position of the text;
* `Keeps`: the entries that are kept, and the strings in them;
* `pick_eq_map`: what is kept with a filter is chosen from what is kept without;
* `separated_of_pick`: the strings of the entries stand apart;
* **`pick_correct`**: which texts fail in which way, and what is kept of the others;
* `pick_limits`: a JSON object that is refused, and a string whose span is not exact.
-/

namespace LocaleStrings.Locale

open Json

/-! ## The value of a text -/

theorem value?_of_accepted {text : Text} {v : Value} (h : Strict.Accepted text)
    (hv : Denotes text v) : value? text = .ok (some v) := by
  rw [value?_eq, (Strict.check_iff_accepted text).mpr h, Lenient.read_of_denotes hv]

theorem value?_of_not_accepted {text : Text} (h : ¬ Strict.Accepted text) :
    ∃ detail k, value? text = .error (.invalidJson detail (locate text k)) := by
  rw [value?_eq]
  cases hc : Strict.check text with
  | ok => exact absurd ((Strict.check_iff_accepted text).mp hc) h
  | error report => exact ⟨report.reason.message, _, rfl⟩

/-! ## Entries -/

/-- The entry of a member. -/
def Entry.ofMember (m : Member) : Entry := ⟨m.key, m.value⟩

theorem entries_of_isObject {text : Text} {ts : List Token} {ms : List Member}
    (h : Strict.Accepted text) (hspell : Spelled 0 text ts) (hms : IsObject ts ms) :
    entries text = .ok (ms.map Entry.ofMember) := by
  rw [entries_eq, value?_of_accepted h ⟨ts, hspell, hms.isValue⟩]
  simp only [Except.bind, entriesOf, List.map_map]
  rfl

theorem entries_of_not_object {text : Text} {v : Value} (h : Strict.Accepted text)
    (hv : Denotes text v) (hobject : ∀ ms, v ≠ .object ms) :
    ∃ found, entries text = .error (.notAnObject found) := by
  rw [entries_eq, value?_of_accepted h hv]
  cases v with
  | object ms => exact absurd rfl (hobject ms)
  | null | boolean | number | string | array => exact ⟨_, rfl⟩

theorem entries_of_not_accepted {text : Text} (h : ¬ Strict.Accepted text) :
    ∃ detail k, entries text = .error (.invalidJson detail (locate text k)) := by
  obtain ⟨detail, k, hvalue⟩ := value?_of_not_accepted h
  refine ⟨detail, k, ?_⟩
  rw [entries_eq, hvalue]
  rfl

/-! ## What is kept -/

/-- The members that a filter keeps. -/
def keptMembers (filter : Option LocaleFilter) (ms : List Member) : List Member :=
  ms.filter fun m => LocaleFilter.keeps filter m.key

theorem pick_of_isObject {text : Text} {ts : List Token} {ms : List Member}
    (h : Strict.Accepted text) (hspell : Spelled 0 text ts) (hms : IsObject ts ms)
    (filter : Option LocaleFilter) :
    pick text filter = .ok ((keptMembers filter ms).map Entry.ofMember) := by
  rw [pick_eq, entries_of_isObject h hspell hms]
  simp only [Except.map, List.filter_map]
  rfl

theorem keptMembers_sublist (filter : Option LocaleFilter) (ms : List Member) :
    (keptMembers filter ms).Sublist ms := List.filter_sublist

/-- The strings that are kept are the string tokens in value position of the members kept. -/
theorem literals_ofMember {ms : List Member} (h : ∀ m ∈ ms, IsValue 1 m.tokens m.value) :
    literals (ms.map Entry.ofMember) = ms.flatMap fun m => valueStrings m.tokens := by
  rw [literals, List.flatMap_map]
  exact List.flatMap_congr fun m hm => (h m hm).literals_eq

/-- The strings of the members kept are string tokens of the text, in its order. -/
theorem literals_sublist {ts : List Token} {ms : List Member} (hms : IsObject ts ms)
    (filter : Option LocaleFilter) :
    (literals ((keptMembers filter ms).map Entry.ofMember)).Sublist
      (ts.filterMap Token.literal?) := by
  have hsub := keptMembers_sublist filter ms
  rw [literals_ofMember fun m hm => hms.member_isValue m (hsub.subset hm)]
  have htokens : ((keptMembers filter ms).flatMap Member.tokens).Sublist ts :=
    (hsub.flatMap _).trans hms.tokens_sublist
  refine List.Sublist.trans ?_ (htokens.filterMap Token.literal?)
  rw [List.filterMap_flatMap]
  exact List.Sublist.flatMap_right _ fun m _ => valueStrings_sublist m.tokens

/-- The strings of the members kept stand one behind the other, with something between them. -/
theorem literals_separated {text : Text} {ts : List Token} {ms : List Member}
    (hspell : Spelled 0 text ts) (hms : IsObject ts ms) (filter : Option LocaleFilter) :
    (literals ((keptMembers filter ms).map Entry.ofMember)).Pairwise
      fun a b => a.stop < b.start := by
  refine List.Pairwise.sublist (literals_sublist hms filter) ?_
  refine List.Pairwise.filterMap Token.literal? (fun t u htu a ha b hb => ?_)
    (hspell.pairwise_lt hms.isValue.separated)
  obtain ⟨hkind, hraw, hstart⟩ := literal?_eq_some ha
  obtain ⟨hkind', -, hstart'⟩ := literal?_eq_some hb
  rw [hkind, hkind'] at htu
  rw [StringLiteral.stop, ← hraw, ← hstart, ← hstart']
  rcases htu with h | h | h
  · cases h
  · cases h
  · exact h

theorem literals_pairwise {text : Text} {ts : List Token} {ms : List Member}
    (hspell : Spelled 0 text ts) (hms : IsObject ts ms) (filter : Option LocaleFilter) :
    (literals ((keptMembers filter ms).map Entry.ofMember)).Pairwise
      fun a b => a.stop ≤ b.start :=
  (literals_separated hspell hms filter).imp Nat.le_of_lt

/-- Below the 32-bit limit the span of a literal is exact. -/
theorem span_of_partAt {text : Text} {s : StringLiteral} (h : Text.PartAt text s.start s.raw)
    (hsize : Text.size text < Word.limit) : s.span = ⟨s.start, s.start + Text.size s.raw⟩ := by
  have hstop := h.add_size_le
  rw [StringLiteral.span, Span.ofOffsets_eq, StringLiteral.stop, Word.truncate_of_lt (by omega),
    Word.truncate_of_lt (by omega)]

theorem slice_span_of_partAt {text : Text} {s : StringLiteral} (h : Text.PartAt text s.start s.raw)
    (hsize : Text.size text < Word.limit) : s.span.slice text = some s.raw := by
  rw [span_of_partAt h hsize]
  exact h.slice

/-- What is kept of a locale text whose tokens stand for an object with the members `ms`: the
members that the filter keeps, in order, and in them the string tokens in value position. -/
structure Keeps (text : Text) (filter : Option LocaleFilter) (ms : List Member)
    (kept : List Entry) : Prop where
  entries : kept = (keptMembers filter ms).map Entry.ofMember
  literals : literals kept = (keptMembers filter ms).flatMap fun m => valueStrings m.tokens
  /-- No literal comes twice, and they come in the order of the text. -/
  ordered : (Locale.literals kept).Pairwise fun a b => a.stop ≤ b.start
  /-- Each literal is a quoted string, and stands at its offset. -/
  written : ∀ s ∈ Locale.literals kept,
    Lexeme s.raw (.string s.value) ∧ Text.PartAt text s.start s.raw
  /-- In a text below the 32-bit limit its span covers it. -/
  covered : Text.size text < Word.limit →
    ∀ s ∈ Locale.literals kept, s.span.slice text = some s.raw

theorem keeps_of_isObject {text : Text} {ts : List Token} {ms : List Member}
    (hspell : Spelled 0 text ts) (hms : IsObject ts ms) (filter : Option LocaleFilter) :
    Keeps text filter ms ((keptMembers filter ms).map Entry.ofMember) := by
  have hwritten : ∀ s ∈ literals ((keptMembers filter ms).map Entry.ofMember),
      Lexeme s.raw (.string s.value) ∧ Text.PartAt text s.start s.raw := by
    intro s hs
    obtain ⟨t, ht, hkind, hraw, hstart⟩ :=
      exists_token_of_mem_filterMap ((literals_sublist hms filter).subset hs)
    rw [← hkind, ← hraw, ← hstart]
    exact ⟨hspell.lexeme t ht, hspell.token_partAt ht⟩
  exact {
    entries := rfl
    literals := literals_ofMember fun m hm =>
      hms.member_isValue m ((keptMembers_sublist filter ms).subset hm)
    ordered := literals_pairwise hspell hms filter
    written := hwritten
    covered := fun hsize s hs => slice_span_of_partAt (hwritten s hs).2 hsize }

/-- The three outcomes. -/
theorem pick_cases (text : Text) (filter : Option LocaleFilter) :
    (¬ Strict.Accepted text ∧
      ∃ detail k, pick text filter = .error (.invalidJson detail (locate text k))) ∨
    (Strict.Accepted text ∧ (∃ v, Denotes text v ∧ ∀ ms, v ≠ .object ms) ∧
      ∃ found, pick text filter = .error (.notAnObject found)) ∨
    (Strict.Accepted text ∧ ∃ ts ms, Spelled 0 text ts ∧ IsObject ts ms ∧
      pick text filter = .ok ((keptMembers filter ms).map Entry.ofMember)) := by
  by_cases hacc : Strict.Accepted text
  · right
    obtain ⟨v, hv, -⟩ := Strict.accepted_iff.mp hacc
    by_cases hobject : ∃ ps, v = .object ps
    · right
      obtain ⟨ps, rfl⟩ := hobject
      obtain ⟨ts, hspell, hvalue⟩ := hv
      obtain ⟨ms, hms, rfl⟩ := exists_isObject hvalue
      exact ⟨hacc, ts, ms, hspell, hms, pick_of_isObject hacc hspell hms filter⟩
    · left
      have hne : ∀ ms, v ≠ .object ms := fun ms h => hobject ⟨ms, h⟩
      obtain ⟨found, hfound⟩ := entries_of_not_object hacc hv hne
      exact ⟨hacc, ⟨v, hv, hne⟩, found, by rw [pick_eq, hfound]; rfl⟩
  · left
    obtain ⟨detail, k, herror⟩ := entries_of_not_accepted hacc
    exact ⟨hacc, detail, k, by rw [pick_eq, herror]; rfl⟩

/-- A text whose entries are read is the written form of an object. -/
theorem exists_isObject_of_pick {text : Text} {filter : Option LocaleFilter} {kept : List Entry}
    (h : pick text filter = .ok kept) :
    ∃ ts ms, Spelled 0 text ts ∧ IsObject ts ms ∧
      kept = (keptMembers filter ms).map Entry.ofMember := by
  rcases pick_cases text filter with ⟨-, _, _, hpick⟩ | ⟨-, -, _, hpick⟩ |
    ⟨-, ts, ms, hspell, hms, hpick⟩
  · rw [hpick] at h
    cases h
  · rw [hpick] at h
    cases h
  · rw [hpick] at h
    cases h
    exact ⟨ts, ms, hspell, hms, rfl⟩

/-- A filter has no say in how a text is read. -/
theorem pick_eq_map (text : Text) (filter : Option LocaleFilter) :
    pick text filter
      = (pick text none).map (·.filter fun e => LocaleFilter.keeps filter e.key) := by
  rw [pick_eq, pick_eq]
  cases entries text with
  | error e => rfl
  | ok es => simp [Except.map, LocaleFilter.keeps]

theorem pick_error_iff {text : Text} (filter : Option LocaleFilter) {e : ParseError} :
    pick text filter = .error e ↔ pick text none = .error e := by
  rw [pick_eq_map]
  cases pick text none with
  | error e' => simp [Except.map]
  | ok es => simp [Except.map]

theorem partAt_of_pick {text : Text} {filter : Option LocaleFilter} {kept : List Entry}
    (h : pick text filter = .ok kept) :
    ∀ s ∈ literals kept, Text.PartAt text s.start s.raw := by
  obtain ⟨ts, ms, hspell, hms, rfl⟩ := exists_isObject_of_pick h
  exact fun s hs => ((keeps_of_isObject hspell hms filter).written s hs).2

theorem lexeme_of_pick {text : Text} {filter : Option LocaleFilter} {kept : List Entry}
    (h : pick text filter = .ok kept) :
    ∀ s ∈ literals kept, Lexeme s.raw (.string s.value) := by
  obtain ⟨ts, ms, hspell, hms, rfl⟩ := exists_isObject_of_pick h
  exact fun s hs => ((keeps_of_isObject hspell hms filter).written s hs).1

theorem separated_of_pick {text : Text} {filter : Option LocaleFilter} {kept : List Entry}
    (h : pick text filter = .ok kept) :
    (literals kept).Pairwise fun a b => a.stop < b.start := by
  obtain ⟨ts, ms, hspell, hms, rfl⟩ := exists_isObject_of_pick h
  exact literals_separated hspell hms filter

/-- **Which locale texts are refused, and what is kept of the others.** A text that is not accepted
is reported as no JSON, an accepted text of another kind than an object as such, and every other
text has its entries. The second reading of an accepted text gives its value. -/
theorem pick_correct (text : Text) (filter : Option LocaleFilter) :
    ((∃ detail p, pick text filter = .error (.invalidJson detail p)) ↔ ¬ Strict.Accepted text) ∧
    ((∃ found, pick text filter = .error (.notAnObject found)) ↔
      Strict.Accepted text ∧ ∃ v, Denotes text v ∧ ∀ ms, v ≠ .object ms) ∧
    ((∃ kept, pick text filter = .ok kept) ↔
      Strict.Accepted text ∧ ∃ ms, Denotes text (.object ms)) ∧
    (Strict.Accepted text → ∃ v, Denotes text v ∧ Lenient.read text = .ok (some v)) ∧
    ∀ kept, pick text filter = .ok kept →
      ∃ ts ms, Spelled 0 text ts ∧ IsObject ts ms ∧ Keeps text filter ms kept := by
  have hread : Strict.Accepted text → ∃ v, Denotes text v ∧ Lenient.read text = .ok (some v) := by
    intro hacc
    obtain ⟨v, hv, -⟩ := Strict.accepted_iff.mp hacc
    exact ⟨v, hv, Lenient.read_of_denotes hv⟩
  rcases pick_cases text filter with ⟨hacc, detail, k, hpick⟩ | ⟨hacc, ⟨v, hv, hne⟩, found, hpick⟩ |
    ⟨hacc, ts, ms, hspell, hms, hpick⟩
  · rw [hpick]
    refine ⟨⟨fun _ => hacc, fun _ => ⟨_, _, rfl⟩⟩, ?_, ?_, hread, by rintro kept ⟨⟩⟩
    · exact ⟨by rintro ⟨found, ⟨⟩⟩, fun h => absurd h.1 hacc⟩
    · exact ⟨by rintro ⟨kept, ⟨⟩⟩, fun h => absurd h.1 hacc⟩
  · rw [hpick]
    refine ⟨?_, ⟨fun _ => ⟨hacc, v, hv, hne⟩, fun _ => ⟨_, rfl⟩⟩, ?_, hread, by rintro kept ⟨⟩⟩
    · exact ⟨by rintro ⟨detail, p, ⟨⟩⟩, fun h => absurd hacc h⟩
    · exact ⟨by rintro ⟨kept, ⟨⟩⟩, fun ⟨_, ms, hms⟩ => absurd (hv.unique hms) (hne ms)⟩
  · have hdenotes : Denotes text (.object (ms.map Member.pair)) := ⟨ts, hspell, hms.isValue⟩
    rw [hpick]
    refine ⟨?_, ?_, ⟨fun _ => ⟨hacc, _, hdenotes⟩, fun _ => ⟨_, rfl⟩⟩, hread, ?_⟩
    · exact ⟨by rintro ⟨detail, p, ⟨⟩⟩, fun h => absurd hacc h⟩
    · exact ⟨by rintro ⟨found, ⟨⟩⟩, fun ⟨_, v, hv, hne⟩ => absurd (hv.unique hdenotes) (hne _)⟩
    · rintro kept ⟨⟩
      exact ⟨ts, ms, hspell, hms, keeps_of_isObject hspell hms filter⟩

/-! ## Two limits -/

/-- A text with an object whose key is the one of embedded texts. -/
def embeddedNumber : Text := "\x7b\"$serde_json::private::RawValue\":1\x7d".toList

theorem embeddedNumber_denotes : ∃ ms, Denotes embeddedNumber (.object ms) := by
  have htokens : Strict.tokens (.start embeddedNumber) =
      ([⟨0, ['\x7b'], .openObject⟩,
        ⟨1, '"' :: Strict.embeddedKey ++ ['"'], .string Strict.embeddedKey⟩, ⟨33, [':'], .colon⟩,
        ⟨34, ['1'], .number⟩, ⟨35, ['\x7d'], .closeObject⟩], .finished 36) := by
    decide +kernel
  have hmembers : AreMembers 1 _ _ :=
    .last (m := ⟨Strict.embeddedKey, [⟨34, ['1'], .number⟩], .number ['1']⟩)
      (k := ⟨1, '"' :: Strict.embeddedKey ++ ['"'], .string Strict.embeddedKey⟩)
      (c := ⟨33, [':'], .colon⟩) rfl rfl (.number rfl)
  exact ⟨_, _, Strict.spelled_of_tokens htokens, .object (by decide) rfl hmembers rfl⟩

theorem embeddedNumber_refused : ¬ Strict.Accepted embeddedNumber := by
  rw [← Strict.check_iff_accepted]
  decide +kernel

/-- A text whose one string stands behind `n` blanks. -/
def spaced (n : Nat) : Text :=
  "\x7b\"a\":".toList ++ (List.replicate n ' ' ++ "\"b\"\x7d".toList)

/-- The tokens of it. -/
def spacedTokens (n : Nat) : List Token :=
  [⟨0, ['\x7b'], .openObject⟩, ⟨1, "\"a\"".toList, .string ['a']⟩, ⟨4, [':'], .colon⟩,
    ⟨5 + n, "\"b\"".toList, .string ['b']⟩, ⟨8 + n, ['\x7d'], .closeObject⟩]

/-- The one member of it. -/
def spacedMember (n : Nat) : Member :=
  ⟨['a'], [⟨5 + n, "\"b\"".toList, .string ['b']⟩], .string ⟨"\"b\"".toList, ['b'], 5 + n⟩⟩

theorem size_replicate_blank (n : Nat) : Text.size (List.replicate n ' ') = n := by
  induction n with
  | zero => rfl
  | succ n ih =>
    rw [List.replicate_succ, Text.size_cons, ih, Nat.add_comm]
    rfl

theorem spelled_cons {o s e : Nat} {b l r : Text} {k : Kind} {ts : List Token}
    (hs : s = o + Text.size b) (he : e = s + Text.size l)
    (hb : IsGap b) (hl : Lexeme l k) (h : Spelled e r ts) :
    Spelled o (b ++ (l ++ r)) (⟨s, l, k⟩ :: ts) := by
  subst hs he
  exact .cons hb hl h

theorem lexeme_letter {c : Char} (hq : c ≠ '"') (hb : c ≠ '\\') (hc : ¬ c < ' ') :
    Lexeme ['"', c, '"'] (.string [c]) := .string (.plain hq hb hc .nil)

theorem spaced_spelled (n : Nat) : Spelled 0 (spaced n) (spacedTokens n) := by
  have hblanks : IsGap (List.replicate n ' ') := by
    intro c hc
    rw [List.eq_of_mem_replicate hc]
    decide
  have ha : Lexeme "\"a\"".toList (.string ['a']) :=
    lexeme_letter (by decide) (by decide) (by decide)
  have hb : Lexeme "\"b\"".toList (.string ['b']) :=
    lexeme_letter (by decide) (by decide) (by decide)
  have hclose : Spelled (8 + n) ['\x7d'] [⟨8 + n, ['\x7d'], .closeObject⟩] :=
    spelled_cons (b := []) (l := ['\x7d']) rfl rfl isGap_nil (.mark .closeObject) (.nil isGap_nil)
  have hstring := spelled_cons (o := 5) (s := 5 + n)
    (by rw [size_replicate_blank]) (show 8 + n = 5 + n + 3 by omega) hblanks hb hclose
  have hcolon := spelled_cons (o := 4) (b := []) (l := [':']) rfl rfl isGap_nil (.mark .colon) hstring
  have hkey := spelled_cons (o := 1) (b := []) rfl rfl isGap_nil ha hcolon
  exact spelled_cons (o := 0) (b := []) rfl rfl isGap_nil (.mark .openObject) hkey

theorem spaced_isObject (n : Nat) : IsObject (spacedTokens n) [spacedMember n] :=
  .members rfl (.last (m := spacedMember n) rfl rfl (.string rfl)) rfl

theorem spaced_accepted (n : Nat) : Strict.Accepted (spaced n) := by
  refine Strict.accepted_iff.mpr ⟨_, ⟨_, spaced_spelled n, (spaced_isObject n).isValue⟩, ?_⟩
  refine admits_object_iff.mpr ⟨?_, by simpa [Member.pair, spacedMember] using admits_string _⟩
  intro x rest heq
  have hkey : ['a'] = Strict.embeddedKey := congrArg Prod.fst (List.cons.inj heq).1
  exact absurd hkey (by decide)

theorem pick_spaced (n : Nat) : pick (spaced n) none = .ok [Entry.ofMember (spacedMember n)] :=
  pick_of_isObject (spaced_accepted n) (spaced_spelled n) (spaced_isObject n) none

theorem spaced_partAt (n : Nat) : Text.PartAt (spaced (3 + n)) 5 "   ".toList := by
  refine ⟨"\x7b\"a\":".toList, List.replicate n ' ' ++ "\"b\"\x7d".toList, ?_, rfl⟩
  rw [spaced, List.replicate_add]
  simp

/-- In a text beyond the 32-bit limit the span of a string covers something else. -/
theorem spaced_span :
    (⟨"\"b\"".toList, ['b'], 5 + Word.limit⟩ : StringLiteral).span.slice (spaced Word.limit)
      = some "   ".toList := by
  have hspan : (⟨"\"b\"".toList, ['b'], 5 + Word.limit⟩ : StringLiteral).span = ⟨5, 8⟩ := by decide
  have hlong : Word.limit = 3 + (Word.limit - 3) := by decide
  rw [hspan, hlong]
  exact (spaced_partAt _).slice

/-- **Not every JSON object has entries, and not every entry has exact spans.** The key of embedded
texts is refused before a number, and a span has 32 bits only. -/
theorem pick_limits :
    ((∃ ms, Denotes embeddedNumber (.object ms)) ∧
      ∃ detail p, pick embeddedNumber none = .error (.invalidJson detail p)) ∧
    ∃ kept s, pick (spaced Word.limit) none = .ok kept ∧ s ∈ literals kept ∧
      Text.PartAt (spaced Word.limit) s.start s.raw ∧
      s.span.slice (spaced Word.limit) ≠ some s.raw := by
  constructor
  · obtain ⟨detail, k, herror⟩ := entries_of_not_accepted embeddedNumber_refused
    exact ⟨embeddedNumber_denotes, detail, locate embeddedNumber k, by rw [pick_eq, herror]; rfl⟩
  · have hpick := pick_spaced Word.limit
    have hmem : (⟨"\"b\"".toList, ['b'], 5 + Word.limit⟩ : StringLiteral)
        ∈ literals [Entry.ofMember (spacedMember Word.limit)] := by
      simp [literals, Entry.ofMember, spacedMember, Value.literals]
    refine ⟨_, _, hpick, hmem, partAt_of_pick hpick _ hmem, ?_⟩
    rw [spaced_span]
    decide

end LocaleStrings.Locale
