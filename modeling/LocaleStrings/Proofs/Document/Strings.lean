import LocaleStrings.Proofs.Document.Places

/-!
# The strings of a document

The check that accepts a locale text and the reader that decodes its strings are different ones.
They agree on every string: what a string of a document is said to mean is what its own text means.

* `Json.IsStringOf`: a text by itself is a JSON string, and which text it stands for;
* `Json.isStringOf_of_lexeme`: a string token by itself is a JSON string;
* **`Parser.parse_decodes`**: every string of a document carries the decoding of its own text.
-/

namespace LocaleStrings

namespace Json

/-- **`raw` by itself is a JSON string that stands for `v`.** -/
structure IsStringOf (raw v : Text) : Prop where
  /-- It begins and ends with a quote, and what stands between the quotes spells `v`. -/
  quoted : ∃ w, raw = '"' :: (w ++ ['"']) ∧ StringText w v
  /-- The strict check accepts it. -/
  accepted : Strict.check raw = .ok ()
  /-- Its tokens are a single string, whose decoding is `v`. -/
  decoded : Strict.tokens (.start raw) = ([⟨0, raw, .string v⟩], .finished (Text.size raw))
  /-- It stands for the string with the text `v` and for nothing else. -/
  denotes : ∀ x : Value, Denotes raw x ↔ x = .string ⟨raw, v, 0⟩

/-- **A string token by itself is a JSON string.** -/
theorem isStringOf_of_lexeme {raw v : Text} (h : Lexeme raw (.string v)) : IsStringOf raw v := by
  have hspell := spelled_of_lexeme h 0
  have hvalue : IsValue 0 [⟨0, raw, .string v⟩] (.string ⟨raw, v, 0⟩) := .string rfl
  have hdenotes : Denotes raw (.string ⟨raw, v, 0⟩) := ⟨_, hspell, hvalue⟩
  refine {
    quoted := h.exists_stringText
    accepted := ?_
    decoded := ?_
    denotes := fun x => ⟨fun hx => hx.unique hdenotes, fun hx => hx ▸ hdenotes⟩ }
  · exact (Strict.check_iff_admits raw).mpr ⟨_, hdenotes, admits_string _⟩
  · have htokens := Strict.tokens_of_spelled hspell hvalue.separated
    rwa [Nat.zero_add] at htokens

end Json

namespace Document

/-- The string in the paragraph of a literal carries the text that the literal stands for. -/
theorem isStringOf_of_occurs_placed {source : Text} {o : Nat} {s : Json.StringLiteral}
    (hs : Json.Lexeme s.raw (.string s.value)) {n : Node} (hn : n.Occurs (placed source o s))
    (hstr : n.type = .str) : ∃ v, n.value = some v ∧ Json.IsStringOf n.raw v := by
  cases hn with
  | root => cases hstr
  | child hc hn =>
    obtain rfl := List.mem_singleton.mp hc
    cases hn with
    | root => exact ⟨s.value, rfl, Json.isStringOf_of_lexeme hs⟩
    | child hc => cases hc

theorem isStringOf_of_assemble {source region : Text} {o : Nat} {kind : SourceKind}
    (hkind : kind.LiesAt source o region) (hsize : Text.size source + 2 < Word.limit)
    {filter : Option LocaleFilter} {doc : Node} (h : assemble source kind filter = .ok doc)
    {n : Node} (hn : n.Occurs doc) (hstr : n.type = .str) :
    ∃ v, n.value = some v ∧ Json.IsStringOf n.raw v := by
  rw [assemble_of_partAt hkind hsize] at h
  split at h
  · cases h
  · next kept hpick =>
    cases h
    cases hn with
    | root => cases hstr
    | child hc hn =>
      obtain ⟨s, hs, rfl⟩ := List.mem_map.mp hc
      exact isStringOf_of_occurs_placed (Locale.lexeme_of_pick hpick s hs) hn hstr

end Document

/-- **Every string of a document carries the decoding of its own text**, whatever the parser and its
filter. -/
theorem Parser.parse_decodes (p : Parser) {source : Text}
    (hsize : Text.size source < Word.limit - 2) {doc : Node} (h : p.parse source = .ok doc)
    (n : Node) (hn : n.Occurs doc) (hstr : n.type = .str) :
    ∃ v, n.value = some v ∧ Json.IsStringOf n.raw v := by
  have hlimit : Text.size source + 2 < Word.limit := by omega
  cases p with
  | json => exact Document.isStringOf_of_assemble (Document.liesAt_plain source) hlimit h hn hstr
  | component filter =>
    rw [Parser.parse_component] at h
    split at h
    · cases h
      cases hn with
      | root => cases hstr
      | child hc => cases hc
    · next b hb => exact Document.isStringOf_of_assemble (Document.liesAt_block hb) hlimit h hn hstr

/-- A component whose one string is written with escapes of one letter, the number of a character
and the numbers of two halves. -/
def escaped : Text :=
  "<i18n>\x7b\"fr\":\"\\\"\\n\\t\\u00e9\\ud83d\\ude00\\/\"\x7d</i18n>".toList

theorem escaped_decodes :
    ∃ doc n : Node, (Parser.component none).parse escaped = .ok doc ∧ n.Occurs doc ∧
      n.type = .str ∧ n.raw = "\"\\\"\\n\\t\\u00e9\\ud83d\\ude00\\/\"".toList ∧
      n.value = some "\"\n\té😀/".toList ∧ Json.IsStringOf n.raw "\"\n\té😀/".toList := by
  have hstrings : ((Parser.component none).parse escaped).map
      (fun doc => ((doc.children.flatMap Node.children).filter (·.type = .str)).map
        fun n => (n.raw, n.value.getD []))
      = .ok [("\"\\\"\\n\\t\\u00e9\\ud83d\\ude00\\/\"".toList, "\"\n\té😀/".toList)] := by
    decide +kernel
  obtain ⟨doc, hdoc, hone⟩ := Except.exists_of_map_eq_ok hstrings
  obtain ⟨n, hn, hpair⟩ := List.map_eq_singleton_iff.mp hone
  obtain ⟨hraw, hvalue⟩ := Prod.mk.inj hpair
  obtain ⟨hmem, htype⟩ := List.mem_filter.mp (hn ▸ List.mem_singleton_self n)
  obtain ⟨p, hp, hnp⟩ := List.mem_flatMap.mp hmem
  have hoccurs : n.Occurs doc := .child hp (.child hnp .root)
  have hstr : n.type = .str := of_decide_eq_true htype
  obtain ⟨v, hv, hstring⟩ := Parser.parse_decodes _ (by decide +kernel) hdoc n hoccurs hstr
  rw [hv] at hvalue
  exact ⟨doc, n, hdoc, hoccurs, hstr, hraw, hvalue ▸ hv, hvalue ▸ hstring⟩

end LocaleStrings
