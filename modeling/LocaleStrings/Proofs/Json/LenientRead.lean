import LocaleStrings.Json.Lenient.Read
import LocaleStrings.Proofs.Json.LenientTokens

/-!
# Reading a JSON text leniently

On a JSON text the lenient reader gives the value that the text stands for. The reader knows no
limit of depth and treats no key in a special way, so this needs no more than the grammar.

* `State.Expects`: the states in which a value comes next;
* `Lenient.run_value`: the tokens of a value are read as the value;
* **`Lenient.read_of_denotes`**: a text is read as the value it stands for;
* `Denotes.unique`: a text stands for one value only.
-/

namespace LocaleStrings.Json

namespace Lenient

theorem run_of_step {s q : State} {t : Token} (h : s.step t = .ok q) (ts : List Token) :
    s.run (t :: ts) = q.run ts := by
  simp only [State.run, h, bind, Except.bind]

/-- In the state `s`, inside the containers `frames`, a value comes next. -/
inductive State.Expects : State → List Frame → Prop
  | root : Expects .root []
  | item (a : OpenArray) (around : List Frame) :
      Expects (.inArray a false around) (.item a :: around)
  | member (o : OpenObject) (key : Text) (around : List Frame) :
      Expects (.afterColon o key around) (.member o key :: around)

theorem run_begin {s q : State} {frames : List Frame} {t : Token} (hs : s.Expects frames)
    (hb : State.begin frames t = .ok q) (ts : List Token) : s.run (t :: ts) = q.run ts := by
  refine run_of_step ?_ ts
  cases hs with
  | root => exact hb
  | item a around =>
    have hclose : t.kind ≠ .closeArray := by
      intro ht
      simp only [State.begin, ht] at hb
      cases hb
    rw [State.step, if_neg (by simp), if_neg hclose]
    exact hb
  | member => exact hb

theorem run_key {o : OpenObject} {around : List Frame} {k : Token} {key : Text}
    (hk : k.kind = .string key) (ts : List Token) :
    (State.inObject o false around).run (k :: ts) = (State.afterKey o key around).run ts := by
  refine run_of_step ?_ ts
  simp [State.step, hk, key?]

theorem run_colon {o : OpenObject} {around : List Frame} {c : Token} {key : Text}
    (hc : c.kind = .colon) (ts : List Token) :
    (State.afterKey o key around).run (c :: ts) = (State.afterColon o key around).run ts :=
  run_of_step (by simp only [State.step, hc, if_true]) ts

mutual

/-- **The tokens of a value are read as the value.** -/
theorem run_value {n : Nat} {ts : List Token} {v : Value} {s : State} {frames : List Frame}
    (rest : List Token) (hs : s.Expects frames) : IsValue n ts v →
    s.run (ts ++ rest) = (State.complete v frames).run rest
  | .null h | .boolean h | .number h | .string h =>
    run_begin hs (by simp only [State.begin, h]) rest
  | @IsValue.emptyArray _ o _ _ ho hc => by
    refine (run_begin (q := .inArray ⟨o.start, []⟩ false frames) hs ?_ _).trans ?_
    · simp only [State.begin, ho]
    · exact run_of_step (by simp [State.step, hc]) rest
  | @IsValue.array _ o _ _ _ _ ho h hc => by
    simp only [List.cons_append, List.append_assoc]
    refine (run_begin (q := .inArray ⟨o.start, []⟩ false frames) hs ?_ _).trans ?_
    · simp only [State.begin, ho]
    · exact run_items [] rest hc h
  | @IsValue.emptyObject _ o _ _ ho hc => by
    refine (run_begin (q := .inObject ⟨o.start, []⟩ false frames) hs ?_ _).trans ?_
    · simp only [State.begin, ho]
    · exact run_of_step (by simp [State.step, hc]) rest
  | @IsValue.object _ o _ _ _ _ ho h hc => by
    simp only [List.cons_append, List.append_assoc]
    refine (run_begin (q := .inObject ⟨o.start, []⟩ false frames) hs ?_ _).trans ?_
    · simp only [State.begin, ho]
    · exact run_members [] rest hc h

/-- The items that come are put behind the items `before`, which were read last one first. -/
theorem run_items {n start : Nat} {ts : List Token} {vs : List Value} {around : List Frame}
    {close : Token} (before : List Value) (rest : List Token) (hclose : close.kind = .closeArray) :
    AreItems n ts vs → (State.inArray ⟨start, before⟩ false around).run (ts ++ close :: rest)
      = (State.complete (.array (before.reverse ++ vs)) around).run rest
  | @AreItems.last _ _ v h => by
    rw [run_value _ (.item _ _) h, State.complete]
    exact run_of_step (by simp [State.step, hclose]) rest
  | @AreItems.more _ _ _ _ v vs h hc hvs => by
    rw [List.append_assoc, run_value _ (.item _ _) h, State.complete, List.cons_append]
    rw [run_of_step (q := .inArray ⟨start, v :: before⟩ false around) (by simp [State.step, hc])]
    rw [run_items (v :: before) rest hclose hvs, List.reverse_cons, List.append_assoc]
    rfl

theorem run_members {n start : Nat} {ts : List Token} {ms : List Member} {around : List Frame}
    {close : Token} (before : List (Text × Value)) (rest : List Token)
    (hclose : close.kind = .closeObject) :
    AreMembers n ts ms → (State.inObject ⟨start, before⟩ false around).run (ts ++ close :: rest)
      = (State.complete (.object (before.reverse ++ ms.map Member.pair)) around).run rest
  | @AreMembers.last _ _ _ m hk hc h => by
    rw [List.cons_append, run_key hk, List.cons_append, run_colon hc, run_value _ (.member _ _ _) h,
      State.complete]
    exact run_of_step (by simp [State.step, hclose, Member.pair]) rest
  | @AreMembers.more _ _ _ _ m _ ms hk hc h hcomma hms => by
    rw [List.cons_append, run_key hk, List.cons_append, run_colon hc, List.append_assoc,
      run_value _ (.member _ _ _) h, State.complete, List.cons_append]
    rw [run_of_step (q := .inObject ⟨start, m.pair :: before⟩ false around)
      (by simp [State.step, hcomma, Member.pair])]
    rw [run_members (m.pair :: before) rest hclose hms, List.reverse_cons, List.append_assoc]
    rfl

end

/-- **A JSON text is read as the value it stands for.** -/
theorem read_of_denotes {text : Text} {v : Value} (h : Denotes text v) :
    read text = .ok (some v) := by
  obtain ⟨ts, hspell, hv⟩ := h
  have htokens : tokens (.start text) = (ts, .finished (0 + Text.size text)) :=
    tokens_of_spelled hspell hv.separated
  have hrun := run_value [] .root hv
  rw [List.append_nil] at hrun
  rw [read, htokens]
  simp only [hrun, bind, Except.bind]
  rfl

end Lenient

theorem Denotes.unique {text : Text} {v w : Value} (hv : Denotes text v) (hw : Denotes text w) :
    v = w := by
  have h := (Lenient.read_of_denotes hv).symm.trans (Lenient.read_of_denotes hw)
  simpa using h

end LocaleStrings.Json
