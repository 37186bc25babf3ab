import LocaleStrings.Proofs.Json.Contents
import LocaleStrings.Proofs.Json.StrictTokens

/-!
# The strict check and the grammar

The check goes through the tokens with the containers that are open. Behind the tokens of a value
it stands where it would stand behind a scalar, and there is no other way to get there.

* `Accepted`: a text is JSON, and the embedded texts in it are accepted themselves;
* `State.Expects`: the states in which a value comes next;
* `run_value`: the tokens of a value are taken;
* `value_of_run`: what is taken up to the end of the text starts with the tokens of a value;
* **`check_iff_accepted`**: the check succeeds on exactly the accepted texts.
-/

namespace LocaleStrings.Json

namespace Strict

/-- The check allows as many open containers as the grammar. -/
theorem depthLimit_eq : depthLimit = nestingLimit := rfl

/-! ## Steps and runs -/

section Run

variable {inner : Text → Except Report Unit} {text : Text}

theorem run_of_step {s q : State} {t : Token} (hs : s.step t = .ok q)
    (he : s.embeddedText? t = none) (ts : List Token) :
    s.run inner text (t :: ts) = q.run inner text ts := by
  simp only [State.run, hs, he, checkEmbedded, Except.mapError, bind, Except.bind]

theorem run_embedded {around : List Container} {t : Token} {v : Text} (ht : t.kind = .string v)
    (hv : inner v = .ok ()) (ts : List Token) :
    (State.embedded around).run inner text (t :: ts)
      = (State.afterEmbedded around).run inner text ts := by
  simp only [State.run, State.step, State.beginEmbedded, State.embeddedText?, ht, checkEmbedded, hv,
    Except.mapError, bind, Except.bind]

/-- What a run does with its first token. -/
theorem exists_of_run_cons {s last : State} {t : Token} {ts : List Token}
    (h : s.run inner text (t :: ts) = .ok last) :
    ∃ next, s.step t = .ok next ∧ checkEmbedded inner (s.embeddedText? t) = .ok () ∧
      next.run inner text ts = .ok last := by
  simp only [State.run, bind, Except.bind] at h
  cases hs : s.step t with
  | error fault =>
    rw [hs] at h
    cases h
  | ok next =>
    simp only [hs, Except.mapError] at h
    split at h
    · cases h
    · next he => exact ⟨next, rfl, he, h⟩

/-! ## The tokens of a value are taken -/

/-- In the state `s`, inside the containers `opened`, a value comes next. -/
inductive State.Expects : State → List Container → Prop
  | value (opened : List Container) : Expects (.value opened) opened
  | first (around : List Container) : Expects (.firstElement around) (.array :: around)
  | next (around : List Container) : Expects (.nextElement around) (.array :: around)

theorem State.Expects.step {s : State} {opened : List Container} (h : s.Expects opened) {t : Token}
    (ht : t.kind ≠ .closeArray) : s.step t = State.begin opened t := by
  cases h with
  | value => rfl
  | first => rw [State.step, if_neg ht]
  | next => rw [State.step, if_neg ht]

theorem State.Expects.embeddedText? {s : State} {opened : List Container} (h : s.Expects opened)
    (t : Token) : s.embeddedText? t = none := by
  cases h <;> rfl

theorem run_begin {s q : State} {opened : List Container} {t : Token} (hs : s.Expects opened)
    (hb : State.begin opened t = .ok q) (ts : List Token) :
    s.run inner text (t :: ts) = q.run inner text ts := by
  have hclose : t.kind ≠ .closeArray := by
    intro ht
    simp only [State.begin, ht] at hb
    cases hb
  exact run_of_step ((hs.step hclose).trans hb) (hs.embeddedText? t) ts

/-- The state `s` takes the first key of the members `ms` like any key. -/
def State.TakesKey (s : State) (around : List Container) (ms : List Member) : Prop :=
  ∀ t, ∀ m ∈ ms.head?, t.kind = .string m.key →
    s.step t = .ok (.afterKey around) ∧ s.embeddedText? t = none

theorem takesKey_next (around : List Container) (ms : List Member) :
    (State.nextKey around).TakesKey around ms := by
  intro t m hm ht
  exact ⟨by simp only [State.step, ht], rfl⟩

theorem takesKey_first (around : List Container) {ms : List Member}
    (h : ∀ m ∈ ms.head?, m.key ≠ embeddedKey) : (State.firstKey around).TakesKey around ms := by
  intro t m hm ht
  exact ⟨by simp only [State.step, ht, State.afterFirstKey, if_neg (h m hm)], rfl⟩

/-- The object that holds an embedded text is taken. -/
theorem run_embedding {around : List Container} {k c t close : Token} {v : Text}
    (hk : k.kind = .string embeddedKey) (hc : c.kind = .colon) (ht : t.kind = .string v)
    (hv : inner v = .ok ()) (hclose : close.kind = .closeObject) (rest : List Token) :
    (State.firstKey around).run inner text (k :: c :: t :: close :: rest)
      = (State.afterValue around).run inner text rest := by
  rw [run_of_step (q := .afterEmbeddedKey around) (by simp [State.step, hk, State.afterFirstKey])
    rfl]
  rw [run_of_step (q := .embedded around) (by simp [State.step, hc]) rfl, run_embedded ht hv]
  exact run_of_step (by simp [State.step, hclose]) rfl rest

theorem tokens_of_string {n : Nat} {ts : List Token} {v : Value} {lit : StringLiteral}
    (h : IsValue n ts v) (hv : v = .string lit) :
    ∃ t, ts = [t] ∧ t.kind = .string lit.value := by
  cases h with
  | string ht =>
    cases hv
    exact ⟨_, rfl, ht⟩
  | null | boolean | number | emptyArray | array | emptyObject | object => cases hv

/-- Members start with a plain key, or they are the one member that holds an embedded text. -/
theorem members_embedding {n : Nat} {ts : List Token} {ms : List Member} {P : Text → Prop}
    (h : AreMembers n ts ms) (he : EmbedsOnly P (ms.map Member.pair)) :
    (∀ m ∈ ms.head?, m.key ≠ embeddedKey) ∨
      ∃ k c t v, ts = [k, c, t] ∧ k.kind = .string embeddedKey ∧ c.kind = .colon ∧
        t.kind = .string v ∧ P v := by
  by_cases hplain : ∀ m ∈ ms.head?, m.key ≠ embeddedKey
  · exact .inl hplain
  · right
    cases h with
    | @last _ k c m hk hc hv =>
      have hkey : m.key = embeddedKey := by simpa using hplain
      obtain ⟨-, lit, hlit, hP⟩ := he m.value [] (by rw [← hkey]; rfl)
      obtain ⟨t, htokens, ht⟩ := tokens_of_string hv hlit
      exact ⟨k, c, t, lit.value, by rw [htokens], by rw [hk, hkey], hc, ht, hP⟩
    | @more _ k c comma m ts ms hk hc hv hcomma hms =>
      have hkey : m.key = embeddedKey := by simpa using hplain
      obtain ⟨hnil, -⟩ := he m.value (ms.map Member.pair) (by rw [← hkey]; rfl)
      cases hms <;> cases hnil

mutual

/-- **The tokens of a value are taken.** -/
theorem run_value {n : Nat} {ts : List Token} {v : Value} {s : State} {opened : List Container}
    (rest : List Token) (hn : opened.length = n) (hs : s.Expects opened)
    (ha : v.Admits (inner · = .ok ())) : IsValue n ts v →
    s.run inner text (ts ++ rest) = (State.afterValue opened).run inner text rest
  | .null h | .boolean h | .number h | .string h =>
    run_begin hs (by simp only [State.begin, h]) rest
  | .emptyArray hlt ho hc => by
    rw [← hn, ← depthLimit_eq] at hlt
    refine (run_begin (q := .firstElement opened) hs ?_ _).trans ?_
    · simp only [State.begin, ho, if_pos hlt]
    · exact run_of_step (by simp only [State.step, hc, if_true]) rfl rest
  | .array hlt ho h hc => by
    rw [← hn, ← depthLimit_eq] at hlt
    simp only [List.cons_append, List.append_assoc]
    refine (run_begin (q := .firstElement opened) hs ?_ _).trans ?_
    · simp only [State.begin, ho, if_pos hlt]
    · exact run_items rest (by rw [hn]) (.first opened) (admits_array_iff.mp ha) hc h
  | .emptyObject hlt ho hc => by
    rw [← hn, ← depthLimit_eq] at hlt
    refine (run_begin (q := .firstKey opened) hs ?_ _).trans ?_
    · simp only [State.begin, ho, if_pos hlt]
    · exact run_of_step (by simp only [State.step, hc]) rfl rest
  | .object hlt ho h hc => by
    rw [← hn, ← depthLimit_eq] at hlt
    obtain ⟨hembeds, hms⟩ := admits_object_iff.mp ha
    simp only [List.cons_append, List.append_assoc]
    refine (run_begin (q := .firstKey opened) hs ?_ _).trans ?_
    · simp only [State.begin, ho, if_pos hlt]
    · rcases members_embedding h hembeds with hplain | ⟨k, c, t, v, rfl, hk, hcolon, ht, hv⟩
      · exact run_members rest (by rw [hn]) (takesKey_first _ hplain)
          (fun m hm => hms m.pair (List.mem_map_of_mem hm)) hc h
      · exact run_embedding hk hcolon ht hv hc rest

theorem run_items {n : Nat} {ts : List Token} {vs : List Value} {s : State}
    {around : List Container} {close : Token} (rest : List Token) (hn : around.length + 1 = n)
    (hs : s.Expects (.array :: around)) (ha : ∀ v ∈ vs, v.Admits (inner · = .ok ()))
    (hclose : close.kind = .closeArray) : AreItems n ts vs →
    s.run inner text (ts ++ close :: rest) = (State.afterValue around).run inner text rest
  | .last h => by
    rw [run_value (close :: rest) (show (_ :: around).length = n from hn) hs
      (ha _ List.mem_cons_self) h]
    exact run_of_step (by simp [State.step, State.afterValue, hclose]) rfl rest
  | .more h hc hvs => by
    rw [List.append_assoc, run_value _ (show (_ :: around).length = n from hn) hs
      (ha _ List.mem_cons_self) h, List.cons_append, State.afterValue]
    rw [run_of_step (q := .nextElement around) (by simp [State.step, hc]) rfl]
    exact run_items rest hn (.next around) (fun v hv => ha v (List.mem_cons_of_mem _ hv)) hclose hvs

theorem run_members {n : Nat} {ts : List Token} {ms : List Member} {s : State}
    {around : List Container} {close : Token} (rest : List Token) (hn : around.length + 1 = n)
    (hs : s.TakesKey around ms) (ha : ∀ m ∈ ms, m.value.Admits (inner · = .ok ()))
    (hclose : close.kind = .closeObject) : AreMembers n ts ms →
    s.run inner text (ts ++ close :: rest) = (State.afterValue around).run inner text rest
  | .last hk hc h => by
    obtain ⟨hstep, hnone⟩ := hs _ _ rfl hk
    rw [List.cons_append, run_of_step hstep hnone, List.cons_append]
    rw [run_of_step (q := .value (.object :: around)) (by simp [State.step, hc]) rfl]
    rw [run_value (close :: rest) (show (_ :: around).length = n from hn) (.value _)
      (ha _ List.mem_cons_self) h]
    exact run_of_step (by simp [State.step, State.afterValue, hclose]) rfl rest
  | .more hk hc h hcomma hms => by
    obtain ⟨hstep, hnone⟩ := hs _ _ rfl hk
    rw [List.cons_append, run_of_step hstep hnone, List.cons_append]
    rw [run_of_step (q := .value (.object :: around)) (by simp [State.step, hc]) rfl]
    rw [List.append_assoc, run_value _ (show (_ :: around).length = n from hn) (.value _)
      (ha _ List.mem_cons_self) h, List.cons_append, State.afterValue]
    rw [run_of_step (q := .nextKey around) (by simp [State.step, hcomma]) rfl]
    exact run_members rest hn (takesKey_next _ _) (fun m hm => ha m (List.mem_cons_of_mem _ hm))
      hclose hms

end

/-! ## Nothing else is taken -/

/-- The tokens `t :: ts` start with the tokens of a value, and behind them the run goes on to the
end. -/
def ReadsValue (inner : Text → Except Report Unit) (text : Text) (opened : List Container)
    (t : Token) (ts : List Token) : Prop :=
  ∃ us rest v, ts = us ++ rest ∧ IsValue opened.length (t :: us) v ∧
    v.Admits (inner · = .ok ()) ∧ (State.afterValue opened).run inner text rest = .ok .done

/-- What begins a value in fewer than `n` tokens before the end is the beginning of a value. -/
def ValuesBelow (inner : Text → Except Report Unit) (text : Text) (n : Nat) : Prop :=
  ∀ (opened : List Container) (t : Token) (ts : List Token) (s : State), ts.length < n →
    State.begin opened t = .ok s → s.run inner text ts = .ok .done →
    ReadsValue inner text opened t ts

theorem step_afterElement {around : List Container} {t : Token} {q : State}
    (h : (State.afterElement around).step t = .ok q) :
    (t.kind = .comma ∧ q = .nextElement around) ∨
      (t.kind = .closeArray ∧ q = .afterValue around) := by
  simp only [State.step] at h
  split_ifs at h with hcomma hclose
  · exact .inl ⟨hcomma, by cases h; rfl⟩
  · exact .inr ⟨hclose, by cases h; rfl⟩

theorem step_afterMember {around : List Container} {t : Token} {q : State}
    (h : (State.afterMember around).step t = .ok q) :
    (t.kind = .comma ∧ q = .nextKey around) ∨
      (t.kind = .closeObject ∧ q = .afterValue around) := by
  simp only [State.step] at h
  split_ifs at h with hcomma hclose
  · exact .inl ⟨hcomma, by cases h; rfl⟩
  · exact .inr ⟨hclose, by cases h; rfl⟩

theorem step_nextElement {around : List Container} {t : Token} {q : State}
    (h : (State.nextElement around).step t = .ok q) :
    State.begin (.array :: around) t = .ok q := by
  simp only [State.step] at h
  split_ifs at h
  exact h

theorem step_nextKey {around : List Container} {t : Token} {q : State}
    (h : (State.nextKey around).step t = .ok q) :
    ∃ key, t.kind = .string key ∧ q = .afterKey around := by
  simp only [State.step] at h
  split at h
  · next key hkey => exact ⟨key, hkey, by cases h; rfl⟩
  · cases h
  · cases h

theorem step_afterKey {around : List Container} {t : Token} {q : State}
    (h : (State.afterKey around).step t = .ok q) :
    t.kind = .colon ∧ q = .value (.object :: around) := by
  simp only [State.step] at h
  split_ifs at h with hcolon
  exact ⟨hcolon, by cases h; rfl⟩

/-- A run that is not at its end takes a token. -/
theorem exists_of_run_done {s : State} {ts : List Token} (hs : s ≠ .done)
    (h : s.run inner text ts = .ok .done) :
    ∃ t us q, ts = t :: us ∧ s.step t = .ok q ∧
      checkEmbedded inner (s.embeddedText? t) = .ok () ∧ q.run inner text us = .ok .done := by
  cases ts with
  | nil => exact absurd (Except.ok.inj h) hs
  | cons t us =>
    obtain ⟨q, hq, he, hrun⟩ := exists_of_run_cons h
    exact ⟨t, us, q, rfl, hq, he, hrun⟩

theorem items_of_run {n : Nat} (hv : ValuesBelow inner text n) {around : List Container}
    {t : Token} {ts : List Token} {s : State} (hlt : ts.length < n)
    (hb : State.begin (.array :: around) t = .ok s) (h : s.run inner text ts = .ok .done) :
    ∃ us close rest vs, ts = us ++ close :: rest ∧ AreItems (around.length + 1) (t :: us) vs ∧
      (∀ v ∈ vs, v.Admits (inner · = .ok ())) ∧ close.kind = .closeArray ∧
      (State.afterValue around).run inner text rest = .ok .done := by
  induction hlen : ts.length using Nat.strong_induction_on generalizing t ts s with
  | _ len ih =>
    obtain ⟨us, behind, v, rfl, hvalue, hadmits, hrun⟩ := hv _ t ts s hlt hb h
    rw [State.afterValue] at hrun
    obtain ⟨c, rest, q, rfl, hstep, -, hrest⟩ := exists_of_run_done (by simp) hrun
    rcases step_afterElement hstep with ⟨hcomma, rfl⟩ | ⟨hclose, rfl⟩
    · -- behind a comma there is another item
      obtain ⟨t', ts', q', rfl, hstep', -, hrest'⟩ := exists_of_run_done (by simp) hrest
      simp only [List.length_append, List.length_cons] at hlen hlt
      obtain ⟨us', close, last, vs, rfl, hitems, hall, hclose, hlast⟩ :=
        ih ts'.length (by omega) (by omega) (step_nextElement hstep') hrest' rfl
      refine ⟨us ++ c :: t' :: us', close, last, v :: vs, by simp, .more hvalue hcomma hitems, ?_,
        hclose, hlast⟩
      intro w hw
      rcases List.mem_cons.mp hw with rfl | hw
      · exact hadmits
      · exact hall w hw
    · exact ⟨us, c, rest, [v], rfl, .last hvalue, by simpa using hadmits, hclose, hrest⟩

theorem members_of_run {n : Nat} (hv : ValuesBelow inner text n) {around : List Container}
    {k : Token} {key : Text} {ts : List Token} (hlt : ts.length < n) (hk : k.kind = .string key)
    (h : (State.afterKey around).run inner text ts = .ok .done) :
    ∃ us close rest m ms, ts = us ++ close :: rest ∧
      AreMembers (around.length + 1) (k :: us) (m :: ms) ∧ m.key = key ∧
      (∀ m' ∈ m :: ms, m'.value.Admits (inner · = .ok ())) ∧ close.kind = .closeObject ∧
      (State.afterValue around).run inner text rest = .ok .done := by
  induction hlen : ts.length using Nat.strong_induction_on generalizing k key ts with
  | _ len ih =>
    obtain ⟨c, us, q, rfl, hstep, -, hrun⟩ := exists_of_run_done (by simp) h
    obtain ⟨hcolon, rfl⟩ := step_afterKey hstep
    obtain ⟨t, us, q, rfl, hstep, -, hrun⟩ := exists_of_run_done (by simp) hrun
    simp only [List.length_cons] at hlen hlt
    obtain ⟨vs, behind, v, rfl, hvalue, hadmits, hrun⟩ := hv _ t us q (by omega) hstep hrun
    rw [State.afterValue] at hrun
    obtain ⟨d, rest, q, rfl, hstep, -, hrest⟩ := exists_of_run_done (by simp) hrun
    rcases step_afterMember hstep with ⟨hcomma, rfl⟩ | ⟨hclose, rfl⟩
    · -- behind a comma there is another key
      obtain ⟨k', ts', q', rfl, hstep', -, hrest'⟩ := exists_of_run_done (by simp) hrest
      obtain ⟨key', hk', rfl⟩ := step_nextKey hstep'
      simp only [List.length_append, List.length_cons] at hlen hlt
      obtain ⟨us', close, last, m, ms, rfl, hmembers, -, hall, hclose, hlast⟩ :=
        ih ts'.length (by omega) (by omega) hk' hrest' rfl
      refine ⟨c :: t :: (vs ++ d :: k' :: us'), close, last, ⟨key, t :: vs, v⟩, m :: ms, by simp,
        .more (m := ⟨key, t :: vs, v⟩) hk hcolon hvalue hcomma hmembers, rfl, ?_, hclose, hlast⟩
      intro m' hm'
      rcases List.mem_cons.mp hm' with rfl | hm'
      · exact hadmits
      · exact hall m' hm'
    · exact ⟨c :: t :: vs, d, rest, ⟨key, t :: vs, v⟩, [], by simp,
        .last (m := ⟨key, t :: vs, v⟩) hk hcolon hvalue, rfl, by simpa using hadmits, hclose, hrest⟩

/-- The tokens behind the opening brace of an object. -/
theorem object_of_run {n : Nat} (hv : ValuesBelow inner text n) {opened : List Container}
    {t : Token} {ts : List Token} (hlt : ts.length ≤ n) (ht : t.kind = .openObject)
    (hn : opened.length < depthLimit)
    (h : (State.firstKey opened).run inner text ts = .ok .done) :
    ReadsValue inner text opened t ts := by
  obtain ⟨k, us, q, rfl, hstep, -, hrun⟩ := exists_of_run_done (by simp) h
  simp only [List.length_cons] at hlt
  simp only [State.step] at hstep
  split at hstep
  · next key hk =>
    cases hstep
    rw [State.afterFirstKey] at hrun
    split_ifs at hrun with hkey
    · -- the key of an embedded text: a colon, a string and the closing brace must follow
      subst hkey
      obtain ⟨c, us, q, rfl, hstep, -, hrun⟩ := exists_of_run_done (by simp) hrun
      simp only [State.step] at hstep
      split_ifs at hstep with hcolon
      cases hstep
      obtain ⟨t', us, q, rfl, hstep, hinner, hrun⟩ := exists_of_run_done (by simp) hrun
      simp only [State.step, State.beginEmbedded] at hstep
      split at hstep <;> cases hstep
      next inner' ht' =>
      simp only [State.embeddedText?, ht', checkEmbedded] at hinner
      obtain ⟨close, rest, q, rfl, hstep, -, hrest⟩ := exists_of_run_done (by simp) hrun
      simp only [State.step] at hstep
      split_ifs at hstep with hclose
      cases hstep
      refine ⟨[k, c, t', close], rest, _, rfl,
        .object hn ht (.last (m := ⟨embeddedKey, [t'], _⟩) hk hcolon (.string ht')) hclose, ?_,
        hrest⟩
      refine admits_object_iff.mpr ⟨?_, by simpa [Member.pair] using admits_string _⟩
      rintro x rest' heq
      cases heq
      exact ⟨rfl, _, rfl, hinner⟩
    · obtain ⟨us, close, rest, m, ms, rfl, hmembers, rfl, hall, hclose, hrest⟩ :=
        members_of_run hv (by omega) hk hrun
      refine ⟨k :: (us ++ [close]), rest, _, by simp, .object hn ht hmembers hclose, ?_, hrest⟩
      refine admits_object_iff.mpr ⟨?_, ?_⟩
      · intro x rest' heq
        exact absurd (congrArg Prod.fst (List.cons.inj heq).1) hkey
      · intro p hp
        obtain ⟨m', hm', rfl⟩ := List.mem_map.mp hp
        exact hall m' hm'
  · next hclose =>
    cases hstep
    exact ⟨[k], us, _, rfl, .emptyObject hn ht hclose,
      admits_object_iff.mpr ⟨by rintro x rest' ⟨⟩, by simp⟩, hrun⟩
  · cases hstep

/-- **What is taken up to the end starts with the tokens of a value.** -/
theorem value_of_run (n : Nat) : ValuesBelow inner text n := by
  -- the tokens behind an opening bracket are fewer, so the values among them are known
  induction n with
  | zero => intro opened t ts s hlt; omega
  | succ n ih =>
    intro opened t ts s hlt hb h
    have hle : ts.length ≤ n := Nat.lt_succ_iff.mp hlt
    simp only [State.begin] at hb
    split at hb
    · next ht =>
      split_ifs at hb with hn
      cases hb
      obtain ⟨c, us, q, rfl, hstep, -, hrun⟩ := exists_of_run_done (by simp) h
      simp only [State.step] at hstep
      simp only [List.length_cons] at hle
      split_ifs at hstep with hclose
      · cases hstep
        exact ⟨[c], us, _, rfl, .emptyArray hn ht hclose, admits_array_iff.mpr (by simp), hrun⟩
      · obtain ⟨us, close, rest, vs, rfl, hitems, hall, hclose, hrest⟩ :=
          items_of_run ih (by omega) hstep hrun
        exact ⟨c :: (us ++ [close]), rest, _, by simp, .array hn ht hitems hclose,
          admits_array_iff.mpr hall, hrest⟩
    · next ht =>
      split_ifs at hb with hn
      cases hb
      exact object_of_run ih hle ht hn h
    · next ht =>
      cases hb
      exact ⟨[], ts, _, rfl, .string ht, admits_string _, h⟩
    · next ht =>
      cases hb
      exact ⟨[], ts, _, rfl, .number ht, admits_number _, h⟩
    · next ht =>
      cases hb
      exact ⟨[], ts, _, rfl, .boolean ht, admits_boolean _, h⟩
    · next ht =>
      cases hb
      exact ⟨[], ts, _, rfl, .null ht, admits_null, h⟩
    all_goals cases hb

end Run

/-! ## Accepted texts -/

/-- **A text is JSON, and so are the texts embedded in it.** An object whose first key is the one
of embedded texts has no other member; its value is a string, and the text it stands for is
accepted itself. -/
inductive Accepted : Text → Prop
  | mk {text : Text} {v : Value} (h : Denotes text v)
      (hone : ∀ x rest, v.HasObject ((embeddedKey, x) :: rest) → rest = [] ∧ ∃ s, x = .string s)
      (hinner : ∀ s, v.HasObject [(embeddedKey, .string s)] → Accepted s.value) : Accepted text

theorem accepted_iff {text : Text} : Accepted text ↔ ∃ v, Denotes text v ∧ v.Admits Accepted := by
  constructor
  · rintro ⟨h, hone, hinner⟩
    refine ⟨_, h, ?_⟩
    rintro ms hms x rest rfl
    obtain ⟨rfl, s, rfl⟩ := hone x rest hms
    exact ⟨rfl, s, rfl, hinner s hms⟩
  · rintro ⟨v, h, ha⟩
    refine ⟨h, fun x rest hms => ?_, fun s hms => ?_⟩
    · obtain ⟨hrest, s, hs, -⟩ := ha _ hms x rest rfl
      exact ⟨hrest, s, hs⟩
    · obtain ⟨-, s', hs', hacc⟩ := ha _ hms (.string s) [] rfl
      cases hs'
      exact hacc

/-- A string of a text stands for fewer characters than the text has. -/
theorem length_lt_of_mem_literals {text : Text} {ts : List Token} {v : Value}
    (hspell : Spelled 0 text ts) (hv : IsValue 0 ts v) {s : StringLiteral} (hs : s ∈ v.literals) :
    s.value.length < text.length := by
  obtain ⟨t, ht, hkind, -, -⟩ := hv.exists_token hs
  obtain ⟨before, after, htext, -⟩ := hspell.token_partAt ht
  have hlexeme := hspell.lexeme t ht
  rw [hkind] at hlexeme
  obtain ⟨w, hw, hstring⟩ := hlexeme.exists_stringText
  have hle := hstring.length_le
  simp only [htext, hw, List.length_append, List.length_cons]
  omega

theorem close_eq_ok {s : State} {e : Ending} (h : s.close e = .ok ()) :
    s = .done ∧ ∃ n, e = .finished n := by
  cases e with
  | refused => cases h
  | finished n => cases s <;> first | exact ⟨rfl, n, rfl⟩ | cases h

/-- Tokens that are taken up to the end of a text are those of one value. -/
theorem isValue_of_run {inner : Text → Except Report Unit} {text : Text} {ts : List Token}
    (h : (State.value []).run inner text ts = .ok .done) :
    ∃ v, IsValue 0 ts v ∧ v.Admits (inner · = .ok ()) := by
  obtain ⟨t, us, q, rfl, hstep, -, hrun⟩ := exists_of_run_done (by simp) h
  obtain ⟨us, rest, v, rfl, hv, ha, hrest⟩ :=
    value_of_run (us.length + 1) [] t us q (Nat.lt_succ_self _) hstep hrun
  cases rest with
  | nil => exact ⟨v, by simpa using hv, ha⟩
  | cons c cs =>
    -- nothing is taken behind a complete value
    obtain ⟨q, hstep, -⟩ := exists_of_run_cons hrest
    cases hstep

/-- The check of a text, when the check of the texts embedded in it is known. -/
theorem check_iff_admits (text : Text) :
    check text = .ok () ↔ ∃ v, Denotes text v ∧ v.Admits (check · = .ok ()) := by
  have hinner : ∀ {ts : List Token} {v : Value}, Spelled 0 text ts → IsValue 0 ts v →
      (v.Admits (fun s => (if s.length < text.length then check s else .ok ()) = .ok ()) ↔
        v.Admits (check · = .ok ())) := by
    intro ts v hspell hv
    constructor <;> intro ha <;> refine ha.mono fun s hs h => ?_
    · rwa [if_pos (length_lt_of_mem_literals hspell hv hs)] at h
    · rwa [if_pos (length_lt_of_mem_literals hspell hv hs)]
  rw [check]
  constructor
  · intro h
    generalize htokens : tokens (.start text) = p at h
    obtain ⟨ts, ending⟩ := p
    simp only [bind, Except.bind] at h
    split at h
    · cases h
    · next s hrun =>
      have hclose : s.close ending = .ok () := by
        cases hc : s.close ending with
        | error => rw [hc] at h; cases h
        | ok => rfl
      obtain ⟨rfl, n, rfl⟩ := close_eq_ok hclose
      obtain ⟨v, hv, ha⟩ := isValue_of_run hrun
      have hspell : Spelled 0 text ts := spelled_of_tokens htokens
      exact ⟨v, ⟨ts, hspell, hv⟩, (hinner hspell hv).mp ha⟩
  · rintro ⟨v, ⟨ts, hspell, hv⟩, ha⟩
    have htokens : tokens (.start text) = (ts, .finished (0 + Text.size text)) :=
      tokens_of_spelled hspell hv.separated
    have hrun := @run_value _ text _ _ _ _ _ [] rfl (.value []) ((hinner hspell hv).mpr ha) hv
    rw [List.append_nil] at hrun
    simp only [htokens, hrun]
    rfl

/-- **The check succeeds on exactly the accepted texts.** -/
theorem check_iff_accepted (text : Text) : check text = .ok () ↔ Accepted text := by
  constructor
  · induction hn : text.length using Nat.strong_induction_on generalizing text with
    | _ n ih =>
      intro h
      obtain ⟨v, hdenotes, ha⟩ := (check_iff_admits text).mp h
      refine accepted_iff.mpr ⟨v, hdenotes, ha.mono fun s hs hcheck => ?_⟩
      obtain ⟨ts, hspell, hv⟩ := hdenotes
      exact ih _ (hn ▸ length_lt_of_mem_literals hspell hv hs) s.value rfl hcheck
  · intro h
    induction h with
    | mk h hone hinner ih =>
      refine (check_iff_admits _).mpr ⟨_, h, ?_⟩
      rintro ms hms x rest rfl
      obtain ⟨rfl, s, rfl⟩ := hone x rest hms
      exact ⟨rfl, s, rfl, ih s hms⟩

end Strict

end LocaleStrings.Json
