import LocaleStrings.Json.Strict.Check
import LocaleStrings.Proofs.Json.Grammar

/-!
# What stands in a JSON value

The strings of a value can be told from its tokens alone: they are the string tokens that no colon
follows. The other string tokens are keys.

* `valueStrings`: the string tokens that no colon follows, as literals;
* **`IsValue.literals_eq`**: they are the literals of the value, in order;
* `IsValue.exists_token`: each literal is written by a token;
* `Value.HasObject`: an object occurs somewhere in a value;
* `Value.Admits`: a condition on the objects that hold an embedded text, wherever they occur.
-/

namespace LocaleStrings.Json

/-! ## Strings -/

/-- The literal that a string token writes. -/
def Token.literal? (t : Token) : Option StringLiteral :=
  match t.kind with
  | .string v => some ⟨t.lexeme, v, t.start⟩
  | _ => none

/-- Whether a stream of tokens starts with a colon. -/
def startsWithColon (ts : List Token) : Bool := ts.head?.any (·.kind == .colon)

/-- The literals of the string tokens that no colon follows. -/
def valueStrings : List Token → List StringLiteral
  | [] => []
  | t :: ts => (if startsWithColon ts then [] else t.literal?.toList) ++ valueStrings ts

theorem valueStrings_mark {t : Token} (h : t.kind.isMark = true) (ts : List Token) :
    valueStrings (t :: ts) = valueStrings ts := by
  have hnone : t.literal? = none := by
    unfold Token.literal?
    split
    · next v hv =>
      rw [hv] at h
      cases h
    · rfl
  rw [valueStrings, hnone]
  simp

theorem valueStrings_append (ts : List Token) {us : List Token}
    (h : startsWithColon us = false) :
    valueStrings (ts ++ us) = valueStrings ts ++ valueStrings us := by
  induction ts with
  | nil => rfl
  | cons t ts ih =>
    have hnext : startsWithColon (ts ++ us) = startsWithColon ts := by
      cases ts with
      | nil => exact h
      | cons u ts => rfl
    rw [List.cons_append, valueStrings, valueStrings, hnext, ih, List.append_assoc]

theorem valueStrings_append_mark (ts : List Token) {c : Token} (hc : c.kind.isMark = true)
    (hcolon : c.kind ≠ .colon) (us : List Token) :
    valueStrings (ts ++ c :: us) = valueStrings ts ++ valueStrings us := by
  rw [valueStrings_append ts (by simpa [startsWithColon] using hcolon), valueStrings_mark hc]

theorem valueStrings_enclose {o c : Token} (ho : o.kind.isMark = true) (ts : List Token)
    (hc : c.kind.isMark = true) (hcolon : c.kind ≠ .colon) :
    valueStrings (o :: (ts ++ [c])) = valueStrings ts := by
  rw [valueStrings_mark ho, valueStrings_append_mark ts hc hcolon, valueStrings, List.append_nil]

/-- A key is no string in value position. -/
theorem valueStrings_key (k : Token) {c : Token} (hc : c.kind = .colon) (ts : List Token) :
    valueStrings (k :: c :: ts) = valueStrings ts := by
  have hstarts : startsWithColon (c :: ts) = true := by simp [startsWithColon, hc]
  rw [valueStrings, hstarts, valueStrings_mark (by rw [hc]; rfl)]
  rfl

mutual

/-- **The strings of a value are its string tokens that no colon follows.** -/
theorem IsValue.literals_eq {n : Nat} {ts : List Token} {v : Value} :
    IsValue n ts v → v.literals = valueStrings ts
  | .null h | .boolean h | .number h | .string h => by
    simp [Value.literals, valueStrings, startsWithColon, Token.literal?, h]
  | .emptyArray _ ho hc | .emptyObject _ ho hc => by
    rw [valueStrings_mark (by rw [ho]; rfl), valueStrings_mark (by rw [hc]; rfl)]
    simp [Value.literals, literalsOfItems, literalsOfMembers, valueStrings]
  | .array _ ho h hc => by
    rw [valueStrings_enclose (by rw [ho]; rfl) _ (by rw [hc]; rfl) (by rw [hc]; decide),
      Value.literals, h.literals_eq]
  | .object _ ho h hc => by
    rw [valueStrings_enclose (by rw [ho]; rfl) _ (by rw [hc]; rfl) (by rw [hc]; decide),
      Value.literals, h.literals_eq]

theorem AreItems.literals_eq {n : Nat} {ts : List Token} {vs : List Value} :
    AreItems n ts vs → literalsOfItems vs = valueStrings ts
  | .last h => by simp [literalsOfItems, h.literals_eq]
  | .more h hc hs => by
    rw [valueStrings_append_mark _ (by rw [hc]; rfl) (by rw [hc]; decide), literalsOfItems,
      h.literals_eq, hs.literals_eq]

theorem AreMembers.literals_eq {n : Nat} {ts : List Token} {ms : List Member} :
    AreMembers n ts ms → literalsOfMembers (ms.map Member.pair) = valueStrings ts
  | .last _ hc h => by
    rw [valueStrings_key _ hc]
    simp [literalsOfMembers, Member.pair, h.literals_eq]
  | .more _ hc h hs hms => by
    rw [valueStrings_key _ hc, valueStrings_append_mark _ (by rw [hs]; rfl) (by rw [hs]; decide)]
    simp only [List.map_cons, Member.pair, literalsOfMembers]
    rw [h.literals_eq, ← hms.literals_eq]

end

theorem valueStrings_sublist (ts : List Token) :
    (valueStrings ts).Sublist (ts.filterMap Token.literal?) := by
  induction ts with
  | nil => exact List.Sublist.refl _
  | cons t ts ih =>
    have hcons : (t :: ts).filterMap Token.literal?
        = t.literal?.toList ++ ts.filterMap Token.literal? := by
      cases ht : t.literal? <;> simp [ht]
    rw [valueStrings, hcons]
    refine List.Sublist.append ?_ ih
    split_ifs
    · exact List.nil_sublist _
    · exact List.Sublist.refl _

theorem literal?_eq_some {t : Token} {s : StringLiteral} (h : t.literal? = some s) :
    t.kind = .string s.value ∧ t.lexeme = s.raw ∧ t.start = s.start := by
  unfold Token.literal? at h
  split at h
  · next v hv =>
    cases h
    exact ⟨hv, rfl, rfl⟩
  · cases h

theorem exists_token_of_mem_filterMap {s : StringLiteral} {ts : List Token}
    (h : s ∈ ts.filterMap Token.literal?) :
    ∃ t ∈ ts, t.kind = .string s.value ∧ t.lexeme = s.raw ∧ t.start = s.start := by
  obtain ⟨t, ht, hlit⟩ := List.mem_filterMap.mp h
  exact ⟨t, ht, literal?_eq_some hlit⟩

/-- The values of members stand in the order of the members. -/
theorem AreMembers.tokens_sublist {n : Nat} {ts : List Token} {ms : List Member}
    (h : AreMembers n ts ms) : (ms.flatMap Member.tokens).Sublist ts := by
  induction ms generalizing ts with
  | nil => exact List.nil_sublist _
  | cons m ms ih =>
    cases h with
    | last => simp
    | more hk hc hv hs hms =>
      rw [List.flatMap_cons]
      exact ((List.Sublist.append (List.Sublist.refl _) ((ih hms).cons _)).cons _).cons _

/-- `IsObject ts ms`: the tokens `ts` stand for an object with the members `ms`. -/
inductive IsObject : List Token → List Member → Prop
  | empty {o c : Token} (ho : o.kind = .openObject) (hc : c.kind = .closeObject) :
      IsObject [o, c] []
  | members {o c : Token} {ts : List Token} {ms : List Member} (ho : o.kind = .openObject)
      (h : AreMembers 1 ts ms) (hc : c.kind = .closeObject) : IsObject (o :: (ts ++ [c])) ms

theorem exists_isObject {ts : List Token} {ps : List (Text × Value)}
    (h : IsValue 0 ts (.object ps)) : ∃ ms, IsObject ts ms ∧ ps = ms.map Member.pair := by
  cases h with
  | emptyObject _ ho hc => exact ⟨[], .empty ho hc, rfl⟩
  | object _ ho h hc => exact ⟨_, .members ho h hc, rfl⟩

theorem IsObject.isValue {ts : List Token} {ms : List Member} (h : IsObject ts ms) :
    IsValue 0 ts (.object (ms.map Member.pair)) := by
  cases h with
  | empty ho hc => exact .emptyObject (by decide) ho hc
  | members ho h hc => exact .object (by decide) ho h hc

theorem AreMembers.isValue {n : Nat} {ts : List Token} {ms : List Member}
    (h : AreMembers n ts ms) : ∀ m ∈ ms, IsValue n m.tokens m.value := by
  induction ms generalizing ts with
  | nil => intro m hm; cases hm
  | cons m ms ih =>
    intro m' hm'
    cases h with
    | last _ _ hv =>
      obtain rfl : m' = m := by simpa using hm'
      exact hv
    | more _ _ hv _ hms =>
      rcases List.mem_cons.mp hm' with rfl | hm'
      · exact hv
      · exact ih hms m' hm'

theorem IsObject.member_isValue {ts : List Token} {ms : List Member} (h : IsObject ts ms) :
    ∀ m ∈ ms, IsValue 1 m.tokens m.value := by
  cases h with
  | empty => intro m hm; cases hm
  | members _ h _ => exact h.isValue

theorem IsObject.tokens_sublist {ts : List Token} {ms : List Member} (h : IsObject ts ms) :
    (ms.flatMap Member.tokens).Sublist ts := by
  cases h with
  | empty => exact List.nil_sublist _
  | members _ h _ => exact (h.tokens_sublist.trans (List.sublist_append_left _ _)).cons _

/-- Each string of a value is written by a token. -/
theorem IsValue.exists_token {n : Nat} {ts : List Token} {v : Value} (h : IsValue n ts v)
    {s : StringLiteral} (hs : s ∈ v.literals) :
    ∃ t ∈ ts, t.kind = .string s.value ∧ t.lexeme = s.raw ∧ t.start = s.start := by
  rw [h.literals_eq] at hs
  exact exists_token_of_mem_filterMap ((valueStrings_sublist ts).subset hs)

/-! ## Objects -/

/-- `v.HasObject ms`: an object with the members `ms` occurs in `v`. -/
inductive Value.HasObject : Value → List (Text × Value) → Prop
  | here (ms : List (Text × Value)) : HasObject (.object ms) ms
  | item {vs : List Value} {v : Value} {ms : List (Text × Value)} (hv : v ∈ vs)
      (h : HasObject v ms) : HasObject (.array vs) ms
  | member {ps : List (Text × Value)} {p : Text × Value} {ms : List (Text × Value)} (hp : p ∈ ps)
      (h : HasObject p.2 ms) : HasObject (.object ps) ms

theorem literalsOfItems_eq (vs : List Value) : literalsOfItems vs = vs.flatMap Value.literals := by
  induction vs with
  | nil => rfl
  | cons v vs ih => rw [literalsOfItems, ih, List.flatMap_cons]

theorem literalsOfMembers_eq (ms : List (Text × Value)) :
    literalsOfMembers ms = ms.flatMap (·.2.literals) := by
  induction ms with
  | nil => rfl
  | cons m ms ih => rw [literalsOfMembers, ih, List.flatMap_cons]

theorem Value.HasObject.literals_subset {v : Value} {ms : List (Text × Value)}
    (h : v.HasObject ms) : literalsOfMembers ms ⊆ v.literals := by
  induction h with
  | here ms =>
    rw [Value.literals]
    exact List.Subset.refl _
  | item hv h ih =>
    intro s hs
    rw [Value.literals, literalsOfItems_eq]
    exact List.mem_flatMap.mpr ⟨_, hv, ih hs⟩
  | member hp h ih =>
    intro s hs
    rw [Value.literals, literalsOfMembers_eq]
    exact List.mem_flatMap.mpr ⟨_, hp, ih hs⟩

/-- An object whose first key is the one of embedded texts has no other member, and its value is a
string that satisfies `P`. -/
def EmbedsOnly (P : Text → Prop) (ms : List (Text × Value)) : Prop :=
  ∀ x rest, ms = (Strict.embeddedKey, x) :: rest → rest = [] ∧ ∃ s, x = .string s ∧ P s.value

/-- Every object in a value that holds an embedded text holds one that satisfies `P`. -/
def Value.Admits (P : Text → Prop) (v : Value) : Prop := ∀ ms, v.HasObject ms → EmbedsOnly P ms

section Admits

variable {P : Text → Prop}

theorem admits_null : Value.null.Admits P := by
  rintro ms ⟨⟩

theorem admits_boolean (b : Bool) : (Value.boolean b).Admits P := by
  rintro ms ⟨⟩

theorem admits_number (t : Text) : (Value.number t).Admits P := by
  rintro ms ⟨⟩

theorem admits_string (s : StringLiteral) : (Value.string s).Admits P := by
  rintro ms ⟨⟩

theorem admits_array_iff {vs : List Value} :
    (Value.array vs).Admits P ↔ ∀ v ∈ vs, v.Admits P := by
  constructor
  · intro h v hv ms hms
    exact h ms (.item hv hms)
  · rintro h ms (_ | ⟨hv, hms⟩)
    exact h _ hv ms hms

theorem admits_object_iff {ps : List (Text × Value)} :
    (Value.object ps).Admits P ↔ EmbedsOnly P ps ∧ ∀ p ∈ ps, p.2.Admits P := by
  constructor
  · intro h
    exact ⟨h ps (.here ps), fun p hp ms hms => h ms (.member hp hms)⟩
  · rintro ⟨hps, h⟩ ms (_ | _ | ⟨hp, hms⟩)
    · exact hps
    · exact h _ hp ms hms

theorem Value.Admits.mono {Q : Text → Prop} {v : Value} (h : v.Admits P)
    (hPQ : ∀ s ∈ v.literals, P s.value → Q s.value) : v.Admits Q := by
  rintro ms hms x rest rfl
  obtain ⟨rfl, s, rfl, hs⟩ := h _ hms x rest rfl
  refine ⟨rfl, s, rfl, hPQ s (hms.literals_subset ?_) hs⟩
  simp [literalsOfMembers, Value.literals]

end Admits

end LocaleStrings.Json
