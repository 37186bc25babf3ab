import LocaleStrings.Json.Write
import LocaleStrings.Proofs.Json.LenientRead
import LocaleStrings.Proofs.Number.Range
import Mathlib.Data.List.Forall2
import Mathlib.Data.List.Nodup

/-!
# Written data and the grammar

The compact form and the indented form of data are texts of the grammar, and the value that is read
from them has the contents of the data.

* `Write.lexeme_string`, `Write.lexeme_integer`: written strings and numbers are those of the
  grammar, whatever characters and digits they have;
* `Value.Matches`: a value that was read has the contents of data, in the same order;
* `Data.Writable`: data that can be written and read back;
* `Data.IsWritten`: a text is the written form of data;
* **`Data.Writable.isWritten_compact`**, **`Data.Writable.isWritten_prettyAt`**: the compact and the
  indented text of data are.
-/

namespace LocaleStrings.Json

/-! ## Strings -/

namespace Write

/-- The number of a control character is written in four digits. -/
theorem isHex4_of_lt {k : Nat} (h : k < 32) :
    IsHex4 '0' '0' (hexDigit (k / 16)) (hexDigit (k % 16)) k := by
  have hvalue : Strict.hexValue4? '0' '0' (hexDigit (k / 16)) (hexDigit (k % 16)) = some k := by
    decide +revert
  exact hexValue4?_eq_some_iff.mp hvalue

/-- What is written for a character stands for the character. -/
theorem stringText_escape (c : Char) {w v : Text} (h : StringText w v) :
    StringText (escape c ++ w) (c :: v) := by
  by_cases hquote : c = '"'
  · subst hquote; exact .letter .quote h
  by_cases hslash : c = '\\'
  · subst hslash; exact .letter .backslash h
  by_cases hb : c = '\x08'
  · subst hb; exact .letter .backspace h
  by_cases hf : c = '\x0c'
  · subst hf; exact .letter .formFeed h
  by_cases hn : c = '\n'
  · subst hn; exact .letter .newline h
  by_cases hr : c = '\r'
  · subst hr; exact .letter .carriageReturn h
  by_cases ht : c = '\t'
  · subst ht; exact .letter .tab h
  rw [escape, if_neg hquote, if_neg hslash, if_neg hb, if_neg hf, if_neg hn, if_neg hr, if_neg ht]
  by_cases hcontrol : c < ' '
  · have hlt : c.toNat < 32 := by simpa [Char.lt_def, UInt32.lt_iff_toNat_lt] using hcontrol
    rw [if_pos hcontrol]
    exact .number (isHex4_of_lt hlt) h
  · rw [if_neg hcontrol]
    exact .plain hquote hslash hcontrol h

theorem stringText_flatMap (t : Text) : StringText (t.flatMap escape) t := by
  induction t with
  | nil => exact .nil
  | cons c t ih => exact stringText_escape c ih

/-- **A written string is a string of the grammar, and stands for the text that was written.** -/
theorem lexeme_string (t : Text) : Lexeme (string t) (.string t) := .string (stringText_flatMap t)

/-- A written string shows where it ends. -/
theorem string_append_inj {s t r r' : Text} (h : string s ++ r = string t ++ r') :
    s = t ∧ r = r' := by
  have read : ∀ t r : Text, Strict.string ⟨0, t.flatMap escape ++ '"' :: r⟩ =
      .ok (t, ⟨0 + Text.size (t.flatMap escape ++ ['"']), r⟩) := fun t r =>
    Strict.string_of_text (stringText_flatMap t) r 0
  have htext : s.flatMap escape ++ '"' :: r = t.flatMap escape ++ '"' :: r' := by
    simpa [string] using h
  have hread := read s r
  rw [htext, read t r'] at hread
  simp only [Except.ok.injEq, Prod.mk.injEq, Cursor.mk.injEq] at hread
  exact ⟨hread.1.symm, hread.2.2.symm⟩

/-! ## Numbers -/

theorem digitsValue_eq (v : Nat) (digits : Text) :
    Decimal.digitsValue v digits = Nat.ofDigitChars 10 digits v := by
  rw [Nat.ofDigitChars_eq_foldl, Decimal.digitsValue]
  refine congrArg (List.foldl · v digits) (funext fun v => funext fun c => ?_)
  rw [Nat.mul_comm]
  rfl

theorem digitsValue_toDigits (n : Nat) : Decimal.digitsValue 0 (Nat.toDigits 10 n) = n := by
  rw [digitsValue_eq, Nat.ofDigitChars_ten_toDigits]

theorem isDigit_of_mem_toDigits {n : Nat} : ∀ c ∈ Nat.toDigits 10 n, c.isDigit = true :=
  fun _ hc => Nat.isDigit_of_mem_toDigits (by decide) (by decide) hc

theorem ascii_isDigit_of_mem_toDigits {n : Nat} :
    ∀ c ∈ Nat.toDigits 10 n, Ascii.isDigit c = true := by
  intro c hc
  have hdigit := isDigit_of_mem_toDigits c hc
  simpa [Char.isDigit, Ascii.isDigit, Char.le_def] using hdigit

/-- The digits of a positive number start with no zero. -/
theorem exists_toDigits_of_pos {n : Nat} (h : 0 < n) :
    ∃ d ds, Nat.toDigits 10 n = d :: ds ∧ d ≠ '0' := by
  induction n using Nat.strong_induction_on with
  | _ n ih =>
    by_cases hlt : n < 10
    · refine ⟨_, [], Nat.toDigits_of_lt_base hlt, ?_⟩
      have hall : ∀ k < 10, 0 < k → Nat.digitChar k ≠ '0' := by decide
      exact hall n hlt h
    · obtain ⟨d, ds, hds, hd⟩ := ih (n / 10) (by omega) (by omega)
      have happend := Nat.toDigits_append_toDigits (b := 10) (n := n / 10) (d := n % 10)
        (by decide) (by omega) (by omega)
      rw [Nat.div_add_mod, hds] at happend
      exact ⟨d, _, happend.symm, hd⟩

theorem integerText_toDigits (n : Nat) : IntegerText (Nat.toDigits 10 n) := by
  rcases Nat.eq_zero_or_pos n with rfl | hpos
  · exact .zero
  · have hdigits := ascii_isDigit_of_mem_toDigits (n := n)
    obtain ⟨d, ds, hds, hd⟩ := exists_toDigits_of_pos hpos
    rw [hds] at hdigits ⊢
    exact .digits (hdigits d List.mem_cons_self) hd fun c hc =>
      hdigits c (List.mem_cons_of_mem _ hc)

theorem numberText_toDigits {n : Nat} (h : n < 2 ^ 64) : NumberText (Nat.toDigits 10 n) := by
  have hrange := Decimal.value?_of_digits ascii_isDigit_of_mem_toDigits
    (show Decimal.digitsValue 0 (Nat.toDigits 10 n) < 2 ^ 64 by rwa [digitsValue_toDigits])
  have htext := NumberText.mk (integerText_toDigits n) .none .none
    (by rwa [List.append_nil, List.append_nil])
  rwa [List.append_nil, List.append_nil] at htext

/-- **A written number is a number of the grammar**, if it has 64 bits at most. -/
theorem lexeme_integer {i : Int} (hmin : -(2 : Int) ^ 63 ≤ i) (hmax : i < 2 ^ 64) :
    Lexeme (integer i) .number := by
  cases i with
  | ofNat n => exact .number (numberText_toDigits (by simpa using hmax))
  | negSucc n => exact .negative (numberText_toDigits (by omega))

end Write

/-! ## Values and data -/

/-- The value has the contents of the data: the same texts, numbers whose digits are worth the same,
and items and members in the same order. -/
inductive Value.Matches : Value → Data → Prop
  | null : Matches .null .null
  | boolean (b : Bool) : Matches (.boolean b) (.boolean b)
  | natural {digits : Text} (h : ∀ c ∈ digits, Ascii.isDigit c = true) :
      Matches (.number digits) (.integer (Nat.ofDigitChars 10 digits 0))
  | negative {digits : Text} (h : ∀ c ∈ digits, Ascii.isDigit c = true)
      (hpos : 0 < Nat.ofDigitChars 10 digits 0) :
      Matches (.number ('-' :: digits)) (.integer (-(Nat.ofDigitChars 10 digits 0 : Int)))
  | string (s : StringLiteral) : Matches (.string s) (.string s.value)
  | array {vs : List Value} {ds : List Data} (h : List.Forall₂ Matches vs ds) :
      Matches (.array vs) (.array ds)
  | object {vs : List (Text × Value)} {ms : List (Text × Data)}
      (hkeys : vs.map Prod.fst = ms.map Prod.fst)
      (h : List.Forall₂ Matches (vs.map Prod.snd) (ms.map Prod.snd)) :
      Matches (.object vs) (.object ms)

theorem matches_integer (i : Int) : (Value.number (Write.integer i)).Matches (.integer i) := by
  have hdigits (n : Nat) := Write.ascii_isDigit_of_mem_toDigits (n := n)
  cases i with
  | ofNat n =>
    have hmatches := Value.Matches.natural (hdigits n)
    rwa [Nat.ofDigitChars_ten_toDigits] at hmatches
  | negSucc n =>
    have hmatches := Value.Matches.negative (hdigits (n + 1))
    rw [Nat.ofDigitChars_ten_toDigits] at hmatches
    exact hmatches n.succ_pos

namespace Data

/-- Inside `n` containers, the data can be written and read back: its numbers are whole and have 64
bits at most, it opens no more containers than are allowed, and no object has a key twice. -/
inductive Writable : Nat → Data → Prop
  | null {n : Nat} : Writable n .null
  | boolean {n : Nat} (b : Bool) : Writable n (.boolean b)
  | integer {n : Nat} {i : Int} (hmin : -(2 : Int) ^ 63 ≤ i) (hmax : i < 2 ^ 64) :
      Writable n (.integer i)
  | string {n : Nat} (s : Text) : Writable n (.string s)
  | array {n : Nat} {items : List Data} (hn : n < nestingLimit)
      (h : ∀ d ∈ items, Writable (n + 1) d) : Writable n (.array items)
  | object {n : Nat} {members : List (Text × Data)} (hn : n < nestingLimit)
      (hkeys : (members.map Prod.fst).Nodup) (h : ∀ m ∈ members, Writable (n + 1) m.2) :
      Writable n (.object members)

theorem writable_record {n : Nat} {members : List (String × Data)} (hn : n < nestingLimit)
    (hkeys : (members.map Prod.fst).Nodup) (h : ∀ m ∈ members, m.2.Writable (n + 1)) :
    (record members).Writable n := by
  refine .object hn ?_ (List.forall_mem_map.mpr h)
  rw [List.map_map]
  have hnodup := List.Nodup.map (fun _ _ h => String.toList_injective h) hkeys
  rwa [List.map_map] at hnodup

/-- Inside `n` containers and from any byte on, the text is the written form of a value that matches
the data. -/
def IsWritten (n : Nat) (d : Data) (text : Text) : Prop :=
  ∀ o, ∃ ts v, Spelled o text ts ∧ IsValue n ts v ∧ v.Matches d

variable {n : Nat}

theorem isWritten_of_lexeme {d : Data} {l : Text} {k : Kind} (h : Lexeme l k)
    (hvalue : ∀ t : Token, t.lexeme = l → t.kind = k → ∃ v, IsValue n [t] v ∧ v.Matches d) :
    d.IsWritten n l := by
  intro o
  obtain ⟨v, hv, hmatches⟩ := hvalue ⟨o, l, k⟩ rfl rfl
  exact ⟨_, v, spelled_of_lexeme h o, hv, hmatches⟩

/-! ## Blanks around a text -/

theorem spelled_of_isGap {b : Text} (hb : IsGap b) (o : Nat) : Spelled o b [] := .nil hb

/-- A mark of one character. -/
theorem spelled_mark {c : Char} {k : Kind} (h : Mark c k) (o : Nat) :
    Spelled o [c] [⟨o, [c], k⟩] := spelled_of_lexeme (.mark h) o

/-- The contents of a container stand between its brackets. -/
theorem spelled_enclose {a b : Char} {k l : Kind} (ha : Mark a k) (hb : Mark b l) {o : Nat}
    {t : Text} {ts : List Token} (h : Spelled (o + Text.size [a]) t ts) :
    Spelled o (a :: (t ++ [b]))
      (⟨o, [a], k⟩ :: (ts ++ [⟨o + Text.size [a] + Text.size t, [b], l⟩])) :=
  (spelled_mark ha o).append (h.append (spelled_mark hb _))

/-- Texts with commas between them. -/
def commaSeparated {α : Type} (write : α → Text) (as : List α) : Text :=
  List.intercalate [','] (as.map write)

theorem commaSeparated_singleton {α : Type} (write : α → Text) (a : α) :
    commaSeparated write [a] = write a := by
  simp [commaSeparated]

theorem commaSeparated_cons {α : Type} (write : α → Text) (a b : α) (as : List α) :
    commaSeparated write (a :: b :: as)
      = write a ++ ([','] ++ commaSeparated write (b :: as)) := by
  simp [commaSeparated, List.intercalate_cons_cons]

theorem exists_areItems {ds : List Data} {write : Data → Text}
    (h : ∀ d ∈ ds, d.IsWritten n (write d)) (hne : ds ≠ []) (o : Nat) :
    ∃ ts vs, Spelled o (commaSeparated write ds) ts ∧ AreItems n ts vs ∧
      List.Forall₂ Value.Matches vs ds := by
  induction ds generalizing o with
  | nil => exact absurd rfl hne
  | cons d ds ih =>
    obtain ⟨ts, v, hspell, hv, hmatches⟩ := h d List.mem_cons_self o
    cases ds with
    | nil =>
      rw [commaSeparated_singleton]
      exact ⟨ts, [v], hspell, .last hv, .cons hmatches .nil⟩
    | cons e es =>
      have hcomma := spelled_mark .comma (o + Text.size (write d))
      obtain ⟨us, vs, hspell', hvs, hmatches'⟩ :=
        ih (fun d hd => h d (List.mem_cons_of_mem _ hd)) (by simp) _
      rw [commaSeparated_cons]
      exact ⟨_, v :: vs, hspell.append (hcomma.append hspell'), .more hv rfl hvs,
        .cons hmatches hmatches'⟩

/-- A member behind the text `lead`. -/
def memberText (lead : Text) (write : Data → Text) (m : Text × Data) : Text :=
  lead ++ (Write.string m.1 ++ ([':'] ++ write m.2))

theorem exists_areMembers {ms : List (Text × Data)} {lead : Text} {write : Data → Text}
    (hlead : IsGap lead) (h : ∀ m ∈ ms, m.2.IsWritten n (write m.2)) (hne : ms ≠ []) (o : Nat) :
    ∃ ts vs, Spelled o (commaSeparated (memberText lead write) ms) ts ∧ AreMembers n ts vs ∧
      vs.map Member.key = ms.map Prod.fst ∧
      List.Forall₂ Value.Matches (vs.map Member.value) (ms.map Prod.snd) := by
  induction ms generalizing o with
  | nil => exact absurd rfl hne
  | cons m ms ih =>
    obtain ⟨key, d⟩ := m
    have hgap := spelled_of_isGap hlead o
    have hkey := spelled_of_lexeme (Write.lexeme_string key) (o + Text.size lead)
    have hcolon := spelled_mark .colon (o + Text.size lead + Text.size (Write.string key))
    obtain ⟨ts, v, hspell, hv, hmatches⟩ := h _ List.mem_cons_self
      (o + Text.size lead + Text.size (Write.string key) + Text.size [':'])
    have hmember : Spelled o (memberText lead write (key, d))
        (⟨_, Write.string key, .string key⟩ :: ⟨_, [':'], .colon⟩ :: ts) :=
      hgap.append (hkey.append (hcolon.append hspell))
    cases ms with
    | nil =>
      rw [commaSeparated_singleton]
      exact ⟨_, [⟨key, ts, v⟩], hmember, .last (m := ⟨key, ts, v⟩) rfl rfl hv, rfl,
        .cons hmatches .nil⟩
    | cons m' ms' =>
      have hcomma := spelled_mark .comma (o + Text.size (memberText lead write (key, d)))
      obtain ⟨us, vs, hspell', hvs, hkeys, hmatches'⟩ :=
        ih (fun m hm => h m (List.mem_cons_of_mem _ hm)) (by simp) _
      rw [commaSeparated_cons]
      refine ⟨_, ⟨key, ts, v⟩ :: vs, hmember.append (hcomma.append hspell'),
        .more (m := ⟨key, ts, v⟩) rfl rfl hv rfl hvs, ?_, .cons hmatches hmatches'⟩
      rw [List.map_cons, hkeys]
      rfl

theorem isWritten_emptyArray (hn : n < nestingLimit) : (Data.array []).IsWritten n ['[', ']'] := by
  intro o
  have hspell := spelled_enclose .openArray .closeArray (spelled_nil (o + Text.size ['[']))
  exact ⟨_, _, hspell, .emptyArray hn rfl rfl, .array .nil⟩

theorem isWritten_array {ds : List Data} {write : Data → Text} {gap : Text}
    (hn : n < nestingLimit) (hgap : IsGap gap) (h : ∀ d ∈ ds, d.IsWritten (n + 1) (write d))
    (hne : ds ≠ []) :
    (Data.array ds).IsWritten n ('[' :: (commaSeparated write ds ++ gap ++ [']'])) := by
  intro o
  obtain ⟨ts, vs, hitems, hvs, hmatches⟩ := exists_areItems h hne (o + Text.size ['['])
  have hbody := hitems.append (spelled_of_isGap hgap _)
  rw [List.append_nil] at hbody
  exact ⟨_, _, spelled_enclose .openArray .closeArray hbody, .array hn rfl hvs rfl, .array hmatches⟩

theorem isWritten_emptyObject (hn : n < nestingLimit) :
    (Data.object []).IsWritten n ['\x7b', '\x7d'] := by
  intro o
  have hspell := spelled_enclose .openObject .closeObject (spelled_nil (o + Text.size ['\x7b']))
  exact ⟨_, _, hspell, .emptyObject hn rfl rfl, .object rfl .nil⟩

theorem isWritten_object {ms : List (Text × Data)} {lead gap : Text} {write : Data → Text}
    (hn : n < nestingLimit) (hlead : IsGap lead) (hgap : IsGap gap)
    (h : ∀ m ∈ ms, m.2.IsWritten (n + 1) (write m.2)) (hne : ms ≠ []) :
    (Data.object ms).IsWritten n
      ('\x7b' :: (commaSeparated (memberText lead write) ms ++ gap ++ ['\x7d'])) := by
  intro o
  obtain ⟨ts, vs, hmembers, hvs, hkeys, hmatches⟩ :=
    exists_areMembers hlead h hne (o + Text.size ['\x7b'])
  have hbody := hmembers.append (spelled_of_isGap hgap _)
  rw [List.append_nil] at hbody
  refine ⟨_, _, spelled_enclose .openObject .closeObject hbody, .object hn rfl hvs rfl, .object ?_ ?_⟩
  · rwa [List.map_map]
  · rwa [List.map_map]

/-! ## The two forms -/

theorem compactItems_eq (ds : List Data) : compactItems ds = commaSeparated compact ds := by
  induction ds with
  | nil => rfl
  | cons d ds ih =>
    cases ds with
    | nil => rw [commaSeparated_singleton, compactItems]
    | cons e es =>
      rw [commaSeparated_cons, ← ih, compactItems]
      · rfl
      · simp

theorem compactMembers_eq (ms : List (Text × Data)) :
    compactMembers ms = commaSeparated (memberText [] compact) ms := by
  induction ms with
  | nil => rfl
  | cons m ms ih =>
    cases ms with
    | nil => simp [compactMembers, commaSeparated_singleton, memberText]
    | cons m' ms' =>
      rw [commaSeparated_cons, ← ih, compactMembers]
      · simp [memberText]
      · simp

theorem isWritten_null : Data.null.IsWritten n "null".toList :=
  isWritten_of_lexeme .null fun _ _ ht => ⟨_, .null ht, .null⟩

theorem isWritten_boolean (b : Bool) : (Data.boolean b).IsWritten n (Write.boolean b) := by
  have hlexeme : Lexeme (Write.boolean b) (.boolean b) := by
    cases b with
    | true => exact .true
    | false => exact .false
  exact isWritten_of_lexeme hlexeme fun _ _ ht => ⟨_, .boolean ht, .boolean b⟩

theorem isWritten_integer {i : Int} (hmin : -(2 : Int) ^ 63 ≤ i) (hmax : i < 2 ^ 64) :
    (Data.integer i).IsWritten n (Write.integer i) := by
  refine isWritten_of_lexeme (Write.lexeme_integer hmin hmax) fun t htext ht => ⟨_, .number ht, ?_⟩
  rw [htext]
  exact matches_integer i

theorem isWritten_string (s : Text) : (Data.string s).IsWritten n (Write.string s) :=
  isWritten_of_lexeme (Write.lexeme_string s) fun _ _ ht => ⟨_, .string ht, .string _⟩

/-- **The compact form of data is its written form.** -/
theorem Writable.isWritten_compact {d : Data} (h : d.Writable n) : d.IsWritten n d.compact := by
  induction h with
  | null => exact isWritten_null
  | boolean b => exact isWritten_boolean b
  | integer hmin hmax => exact isWritten_integer hmin hmax
  | string s => exact isWritten_string s
  | @array n items hn _ ih =>
    cases items with
    | nil => exact isWritten_emptyArray hn
    | cons d ds =>
      rw [compact, compactItems_eq]
      simpa using isWritten_array hn isGap_nil ih (by simp)
  | @object n members hn _ _ ih =>
    cases members with
    | nil => exact isWritten_emptyObject hn
    | cons m ms =>
      rw [compact, compactMembers_eq]
      simpa using isWritten_object hn isGap_nil isGap_nil ih (by simp)

end Data

end LocaleStrings.Json
