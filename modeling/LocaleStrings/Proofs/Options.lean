import LocaleStrings.Options.Basic
import LocaleStrings.Proofs.Json.InOrder

/-!
# Options survive writing and reading

Options are written as strict JSON and read as JSON with comments. Neither the characters in them
nor the field that may be left out are lost on the way.

* `Options.toData_writable`, `Options.sorted_toData`: options are strings in two levels of containers,
  with their fields in order;
* `Options.ofData_toData`: the data of options is decoded as the options;
* **`Options.read_json`**: the text of options is read as the options.
-/

namespace LocaleStrings

open Json (Data)

/-! ## Lists of texts -/

theorem Decode.texts_array (ts : List Text) : Decode.texts (.array (ts.map .string)) = .ok ts := by
  have htexts : (ts.map Data.string).mapM Decode.text = .ok ts := by
    induction ts with
    | nil => rfl
    | cons t ts ih =>
      rw [List.map_cons, List.mapM_cons, ih]
      rfl
  exact htexts

theorem Json.Data.writable_array {n : Nat} (hn : n < Json.nestingLimit) (ts : List Text) :
    (Data.array (ts.map .string)).Writable n := by
  refine .array hn fun d hd => ?_
  obtain ⟨t, -, rfl⟩ := List.mem_map.mp hd
  exact .string t

theorem Json.Data.sortedItems_strings (ts : List Text) :
    Data.sortedItems (ts.map .string) = ts.map .string := by
  rw [Data.sortedItems_eq, List.map_map]
  rfl

/-! ## Fields -/

section Fields

variable {α β : Type} {first second : String} {f : Data → Except DecodeError α}
  {g : Data → Except DecodeError β} {d e : Data} {a : α} {b : β}

theorem Decode.fields_second (hne : second.toList ≠ first.toList) (hg : g e = .ok b) :
    Decode.fields first second f g [(second.toList, e)] = .ok (none, some b) := by
  rw [Decode.fields, if_neg hne, if_pos rfl, hg]
  rfl

theorem Decode.fields_both (hne : second.toList ≠ first.toList) (hf : f d = .ok a)
    (hg : g e = .ok b) :
    Decode.fields first second f g [(first.toList, d), (second.toList, e)]
      = .ok (some a, some b) := by
  rw [Decode.fields, if_pos rfl, hf, Decode.fields_second hne hg]
  rfl

end Fields

/-! ## Options -/

namespace Options

/-- Options hold strings, inside two containers. -/
theorem toData_writable (o : Options) : o.toData.Writable 0 := by
  have htexts : ∀ ts : List Text, (Data.array (ts.map .string)).Writable 1 :=
    Data.writable_array (by decide)
  obtain ⟨_ | locales, resources⟩ := o
  · refine Data.writable_record (by decide) (List.nodup_singleton _) ?_
    exact List.forall_mem_singleton.mpr (htexts resources)
  · refine Data.writable_record (by decide) ?_ (List.forall_mem_cons.mpr ⟨htexts locales, ?_⟩)
    · show ["locales", "resources"].Nodup
      decide
    · exact List.forall_mem_singleton.mpr (htexts resources)

/-- The fields of options stand in the order of their names. -/
theorem sorted_toData (o : Options) : o.toData.sorted = o.toData := by
  obtain ⟨_ | locales, resources⟩ := o
  · simp only [toData, Data.record, List.nil_append, List.map_cons, List.map_nil, Data.sorted,
      Data.sortedMembers, Data.sortedItems_strings]
    rfl
  · simp only [toData, Data.record, List.cons_append, List.nil_append, List.map_cons, List.map_nil,
      Data.sorted, Data.sortedMembers, Data.sortedItems_strings]
    rfl

/-- Locales that are given are not null, even if there are none. -/
theorem localesOfData_array (ts : List Text) :
    localesOfData (.array (ts.map .string)) = .ok (some ts) := by
  rw [localesOfData, Decode.texts_array]
  · rfl
  · simp

/-- A field that is not there has its default. -/
theorem ofData_object {members : List (Text × Data)} {locales : Option (Option (List Text))}
    {resources : Option (List Text)}
    (h : Decode.fields "locales" "resources" localesOfData Decode.texts members
      = .ok (locales, resources)) :
    ofData (.object members) = .ok ⟨locales.getD none, resources.getD []⟩ := by
  rw [ofData, h]
  rfl

theorem ofData_toData (o : Options) : ofData o.toData = .ok o := by
  have hne : "resources".toList ≠ "locales".toList := by decide
  obtain ⟨_ | locales, resources⟩ := o
  · exact ofData_object (Decode.fields_second hne (Decode.texts_array resources))
  · exact ofData_object (Decode.fields_both hne (localesOfData_array locales)
      (Decode.texts_array resources))

/-- **Options survive writing and reading.** The text of options is read as these options, whatever
characters their strings have, and whether locales are not given, empty or given. -/
theorem read_json (o : Options) : read o.json = .ok o := by
  obtain ⟨v, hv, hdata⟩ := Data.denotes_compact o.toData_writable
  have hread : Json.Lenient.read o.json = .ok (some v) := Json.Lenient.read_of_denotes hv
  rw [read, hread]
  simp only [hdata, sorted_toData, ofData_toData]

end Options

end LocaleStrings
