import LocaleStrings.Json.Strict.Check
import LocaleStrings.Proofs.Source.Offsets

/-!
# Where the strict check stops

No reader takes more bytes than the text has, so a fault is noticed inside the text or at its end.

* `FaultsBy`: a reading whose faults are noticed before a given number of bytes, or behind them;
  `FaultsBy.bind` and `FaultsBy.map` put such readings together;
* `number_faultsBy`, `string_faultsBy`, `token_faultsBy`: each reader, up to the end of its text;
* `tokens_endBy`, `State.step_faultsBy`, `State.close_faultsBy`: the tokens of a text and the check
  that goes through them;
* `State.awaitsEmbedded_of_step`: an embedded text is announced by its key;
* **`report_of_check`**: what the check reports is a fault inside the text, or was reported by the
  check of an embedded text.
-/

namespace LocaleStrings.Json

namespace Cursor

theorem Reaches.endOffset_eq {a b : Cursor} (h : a.Reaches b) : b.endOffset = a.endOffset := by
  obtain ⟨taken, hrest, hoffset⟩ := h
  rw [endOffset, endOffset, hrest, hoffset, Text.size_append, Nat.add_assoc]

theorem Passes.endOffset_eq {a b : Cursor} (h : a.Passes b) : b.endOffset = a.endOffset :=
  h.reaches.endOffset_eq

theorem offset_le_endOffset (cur : Cursor) : cur.offset ≤ cur.endOffset := Nat.le_add_right _ _

theorem offset_lt_endOffset {cur : Cursor} {c : Char} {cs : Text} (h : cur.rest = c :: cs) :
    cur.offset < cur.endOffset := by
  have := c.utf8Size_pos
  rw [endOffset, h, Text.size_cons]
  omega

end Cursor

namespace Strict

open Cursor

/-! ## Readings with bounded faults -/

/-- A fault of the reading is noticed after at most `n` bytes. -/
def FaultsBy {α : Type} (n : Nat) (x : Except Fault α) : Prop := ∀ f, x = .error f → f.taken ≤ n

namespace FaultsBy

variable {α β : Type} {n : Nat} {x : Except Fault α}

theorem ok (a : α) : FaultsBy n (.ok a : Except Fault α) := by
  intro f h
  cases h

theorem error {f : Fault} (h : f.taken ≤ n) : FaultsBy n (.error f : Except Fault α) := by
  intro g hg
  cases hg
  exact h

theorem bind {f : α → Except Fault β} (hx : FaultsBy n x)
    (hf : ∀ a, x = .ok a → FaultsBy n (f a)) : FaultsBy n (x >>= f) := by
  cases x with
  | error e => exact error (hx e rfl)
  | ok a => exact hf a rfl

theorem map {f : α → β} (hx : FaultsBy n x) : FaultsBy n (x.map f) := by
  cases x with
  | error e => exact error (hx e rfl)
  | ok a => exact ok (f a)

end FaultsBy

/-! ## The readers of literals -/

theorem word_faultsBy (expected : Text) (cur : Cursor) :
    FaultsBy cur.endOffset (word expected cur) := by
  induction expected generalizing cur with
  | nil => exact .ok cur
  | cons e es ih =>
    rw [word]
    split
    · exact .error (offset_le_endOffset cur)
    · next c cs hc =>
      split_ifs
      · rw [← (passes_push hc).endOffset_eq]
        exact ih _
      · exact .error (offset_lt_endOffset hc)

theorem integerPart_faultsBy (cur : Cursor) : FaultsBy cur.endOffset (integerPart cur) := by
  rw [integerPart]
  split
  · exact .error (offset_le_endOffset cur)
  · next c cs hc =>
    dsimp only
    split_ifs with hzero hdigit hnonzero
    · -- the digit behind a zero is taken as well
      obtain ⟨d, ds, hds⟩ : ∃ d ds, (cur.push c cs).rest = d :: ds := by
        cases hrest : (cur.push c cs).rest with
        | nil => simp [hrest] at hdigit
        | cons d ds => exact ⟨d, ds, rfl⟩
      rw [← (passes_push hc).endOffset_eq]
      exact .error (offset_lt_endOffset hds)
    · exact .ok _
    · exact .ok _
    · exact .error (offset_lt_endOffset hc)

theorem fractionPart_faultsBy (cur : Cursor) : FaultsBy cur.endOffset (fractionPart cur) := by
  rw [fractionPart]
  split
  · next cs hc =>
    rw [← (passes_push hc).endOffset_eq]
    dsimp only
    split
    · exact .error (offset_le_endOffset _)
    · split_ifs
      · exact .ok _
      · exact .error (offset_lt_endOffset rfl)
  · exact .ok cur

theorem exponentDigits_faultsBy (cur : Cursor) : FaultsBy cur.endOffset (exponentDigits cur) := by
  rw [exponentDigits]
  split
  · exact .error (offset_le_endOffset cur)
  · next d ds hd =>
    split_ifs
    · exact .ok _
    · exact .error (offset_lt_endOffset hd)

theorem exponentPart_faultsBy (cur : Cursor) : FaultsBy cur.endOffset (exponentPart cur) := by
  rw [exponentPart]
  split
  · exact .ok cur
  · next c cs hc =>
    split_ifs
    · rw [← ((passes_push hc).reaches.trans (reaches_skipSign _)).endOffset_eq]
      exact exponentDigits_faultsBy _
    · exact .ok cur

theorem number_faultsBy (cur : Cursor) : FaultsBy cur.endOffset (number cur) := by
  refine (integerPart_faultsBy cur).bind fun a ha => ?_
  have hreach := (integerPart_passes ha).reaches
  rw [← hreach.endOffset_eq]
  refine (fractionPart_faultsBy a).bind fun b hb => ?_
  rw [← (fractionPart_reaches hb).endOffset_eq]
  refine (exponentPart_faultsBy b).bind fun c hc => ?_
  rw [← (exponentPart_reaches hc).endOffset_eq]
  split
  · exact .error (Nat.le_trans (Nat.sub_le _ _) (offset_le_endOffset c))
  · exact .ok c

theorem hexFault_taken_le (cur : Cursor) : (hexFault cur).taken ≤ cur.endOffset := by
  unfold hexFault
  split_ifs with h
  · exact Nat.le_refl _
  · show cur.offset + 4 ≤ cur.offset + Text.size cur.rest
    omega

theorem hex4_faultsBy (cur : Cursor) : FaultsBy cur.endOffset (hex4 cur) := by
  rw [hex4]
  split
  · split
    · exact .ok _
    · exact .error (hexFault_taken_le cur)
  · exact .error (hexFault_taken_le cur)

theorem continuation_faultsBy (expected : Char) (cur : Cursor) :
    FaultsBy cur.endOffset (continuation expected cur) := by
  rw [continuation]
  split
  · exact .error (offset_le_endOffset cur)
  · next c cs hc =>
    split_ifs
    · exact .ok _
    · exact .error (offset_lt_endOffset hc)

theorem unicodeEscape_faultsBy (cur : Cursor) : FaultsBy cur.endOffset (unicodeEscape cur) := by
  refine (hex4_faultsBy cur).bind ?_
  rintro ⟨n, a⟩ ha
  rw [← (hex4_passes ha).endOffset_eq]
  dsimp only
  split_ifs
  · exact .error (offset_le_endOffset a)
  · refine (continuation_faultsBy _ a).bind fun b hb => ?_
    rw [← (continuation_passes hb).endOffset_eq]
    refine (continuation_faultsBy _ b).bind fun c hc => ?_
    rw [← (continuation_passes hc).endOffset_eq]
    refine (hex4_faultsBy c).bind ?_
    rintro ⟨m, d⟩ hd
    rw [← (hex4_passes hd).endOffset_eq]
    dsimp only
    split_ifs
    · exact .ok _
    · exact .error (offset_le_endOffset d)
  · exact .ok _

theorem escape_faultsBy (cur : Cursor) : FaultsBy cur.endOffset (escape cur) := by
  rw [escape]
  split
  · exact .error (offset_le_endOffset cur)
  · next c cs hc =>
    split_ifs
    · rw [← (passes_push hc).endOffset_eq]
      exact unicodeEscape_faultsBy _
    · split
      · exact .ok _
      · exact .error (offset_lt_endOffset hc)

theorem string_faultsBy (cur : Cursor) : FaultsBy cur.endOffset (string cur) := by
  fun_induction string cur with
  | case1 cur => exact .error (offset_le_endOffset cur)
  | case2 => exact .ok _
  | case3 cur c cs hr => exact .error (offset_lt_endOffset hr)
  | case4 cur cs fault hr next hquote hcontrol he =>
    rw [← (passes_push hr).endOffset_eq]
    exact .error (escape_faultsBy _ fault he)
  | case5 cur cs e last fault hs hr next hquote hcontrol he ih =>
    rw [← ((passes_push hr).trans (escape_passes he)).endOffset_eq]
    exact .error (ih fault hs)
  | case6 => exact .ok _
  | case7 cur c cs hr next hquote hcontrol hescape fault hs ih =>
    rw [← (passes_push hr).endOffset_eq]
    exact .error (ih fault hs)
  | case8 => exact .ok _

/-! ## Tokens -/

theorem token_faultsBy {cur : Cursor} {c : Char} {cs : Text} (hc : cur.rest = c :: cs) :
    FaultsBy cur.endOffset (token cur c cs) := by
  have hnext := (passes_push hc).endOffset_eq
  simp only [token]
  split
  · exact .ok _
  · split_ifs
    · rw [← hnext]
      exact (string_faultsBy _).map
    · rw [← hnext]
      exact (number_faultsBy _).map
    · exact (number_faultsBy cur).map
    · rw [← hnext]
      exact (word_faultsBy _ _).map
    · rw [← hnext]
      exact (word_faultsBy _ _).map
    · rw [← hnext]
      exact (word_faultsBy _ _).map
    · exact .error (offset_lt_endOffset hc)

/-- The token starts before byte `n`, and ends there at the latest. -/
def EndsBy (n : Nat) (t : Token) : Prop := t.start < n ∧ t.stop ≤ n

/-- The stream of tokens ends at byte `n` at the latest. -/
def Ending.EndsBy (n : Nat) : Ending → Prop
  | .finished offset => offset ≤ n
  | .refused start _ fault => start < n ∧ fault.taken ≤ n

theorem stop_between_of_passes {here next : Cursor} (h : here.Passes next) (kind : Kind) :
    (Token.between here next kind).stop = next.offset := by
  obtain ⟨taken, hrest, hoffset⟩ := h.reaches
  have hlexeme : here.upTo next = taken := by
    rw [Cursor.upTo, hrest, hoffset, Nat.add_sub_cancel_left, Text.within_size_append]
  show here.offset + Text.size (here.upTo next) = next.offset
  rw [hlexeme, hoffset]

/-- **Every token of a text lies in the text**, and so does what ends the tokens. -/
theorem tokens_endBy (cur : Cursor) :
    (∀ t ∈ (tokens cur).1, EndsBy cur.endOffset t) ∧ (tokens cur).2.EndsBy cur.endOffset := by
  fun_induction tokens cur with
  | case1 cur here hr =>
    rw [← (reaches_skip isBlank cur).endOffset_eq]
    exact ⟨fun t ht => absurd ht List.not_mem_nil, offset_le_endOffset _⟩
  | case2 cur here c cs hr fault ht =>
    rw [← (reaches_skip isBlank cur).endOffset_eq]
    exact ⟨fun t ht => absurd ht List.not_mem_nil, offset_lt_endOffset hr,
      token_faultsBy hr fault ht⟩
  | case3 cur here c cs hr kind next ht others ending hrest ih =>
    have hpasses := token_passes hr ht
    rw [hrest, hpasses.endOffset_eq] at ih
    rw [← (reaches_skip isBlank cur).endOffset_eq]
    refine ⟨fun t hmem => ?_, ih.2⟩
    rcases List.mem_cons.mp hmem with rfl | hothers
    · refine ⟨offset_lt_endOffset hr, ?_⟩
      rw [stop_between_of_passes hpasses, ← hpasses.endOffset_eq]
      exact offset_le_endOffset next
    · exact ih.1 t hothers

/-! ## The check -/

section Check

variable {n : Nat} {t : Token}

theorem State.begin_faultsBy (opened : List Container) (ht : EndsBy n t) :
    FaultsBy n (State.begin opened t) := by
  unfold State.begin
  cases t.kind with
  | openArray | openObject =>
    dsimp only
    split_ifs
    · exact .ok _
    · exact .error ht.1
  | string | number | boolean | null => exact .ok _
  | closeArray | closeObject | comma | colon | word => exact .error ht.1

/-- A scalar is read before it is refused, and a container is refused unread. -/
theorem State.beginEmbedded_faultsBy (around : List Container) (ht : EndsBy n t) :
    FaultsBy n (State.beginEmbedded around t) := by
  unfold State.beginEmbedded
  cases t.kind with
  | string => exact .ok _
  | number | boolean | null => exact .error ht.2
  | openArray | openObject => exact .error (Nat.le_of_lt ht.1)
  | closeArray | closeObject | comma | colon | word => exact .error ht.1

/-- **A step of the check takes no more than its token.** -/
theorem State.step_faultsBy (s : State) (ht : EndsBy n t) : FaultsBy n (s.step t) := by
  cases s with
  | value opened => exact State.begin_faultsBy opened ht
  | firstElement around =>
    simp only [State.step]
    split_ifs
    · exact .ok _
    · exact State.begin_faultsBy _ ht
  | nextElement around =>
    simp only [State.step]
    split_ifs
    · exact .error ht.1
    · exact State.begin_faultsBy _ ht
  | afterElement around | afterMember around =>
    simp only [State.step]
    split_ifs
    · exact .ok _
    · exact .ok _
    · exact .error ht.1
  | firstKey around =>
    simp only [State.step]
    cases t.kind with
    | string | closeObject => exact .ok _
    | _ => exact .error ht.1
  | nextKey around =>
    simp only [State.step]
    cases t.kind with
    | string => exact .ok _
    | _ => exact .error ht.1
  | afterKey around | afterEmbeddedKey around =>
    simp only [State.step]
    split_ifs
    · exact .ok _
    · exact .error ht.1
  | embedded around => exact State.beginEmbedded_faultsBy around ht
  | afterEmbedded around =>
    simp only [State.step]
    split_ifs
    · exact .ok _
    · exact .error ht.1
    · exact .error ht.1
  | done => exact .error ht.1

theorem State.close_faultsBy (s : State) {ending : Ending} (h : ending.EndsBy n) :
    FaultsBy n (s.close ending) := by
  cases ending with
  | finished offset =>
    cases s with
    | done => exact .ok ()
    | _ => exact .error h
  | refused start inString fault =>
    refine .error ?_
    cases s with
    | value | firstElement | nextElement | embedded => exact h.2
    | firstKey | nextKey =>
      unfold State.refuse
      split_ifs
      · exact h.2
      · exact h.1
    | _ => exact h.1

/-! ## Embedded texts -/

/-- The key of an embedded text was taken, and the text is still to come. -/
def State.awaitsEmbedded : State → Bool
  | .afterEmbeddedKey _ | .embedded _ => true
  | _ => false

theorem State.awaitsEmbedded_afterValue (around : List Container) :
    (State.afterValue around).awaitsEmbedded = false := by
  rcases around with _ | ⟨_ | _, around⟩ <;> rfl

theorem State.awaitsEmbedded_begin {opened : List Container} {next : State}
    (h : State.begin opened t = .ok next) : next.awaitsEmbedded = false := by
  unfold State.begin at h
  cases hkind : t.kind with
  | openArray | openObject =>
    simp only [hkind] at h
    split_ifs at h
    cases h
    rfl
  | string | number | boolean | null =>
    simp only [hkind] at h
    cases h
    exact State.awaitsEmbedded_afterValue opened
  | closeArray | closeObject | comma | colon | word =>
    simp only [hkind] at h
    cases h

/-- **Only the key of an embedded text makes the check wait for one.** -/
theorem State.awaitsEmbedded_of_step {s next : State} (h : s.step t = .ok next)
    (hnext : next.awaitsEmbedded = true) :
    s.awaitsEmbedded = true ∨ t.kind = .string embeddedKey := by
  have hvalue : ∀ around, next = .afterValue around → False := by
    rintro around rfl
    rw [State.awaitsEmbedded_afterValue] at hnext
    cases hnext
  have hbegin : ∀ opened, State.begin opened t = .ok next → False := by
    intro opened hopened
    rw [State.awaitsEmbedded_begin hopened] at hnext
    cases hnext
  cases s with
  | value opened => exact (hbegin _ h).elim
  | firstElement around =>
    simp only [State.step] at h
    split_ifs at h
    · exact (hvalue around (Except.ok.inj h).symm).elim
    · exact (hbegin _ h).elim
  | nextElement around =>
    simp only [State.step] at h
    split_ifs at h
    exact (hbegin _ h).elim
  | afterElement around | afterMember around =>
    simp only [State.step] at h
    split_ifs at h
    · cases h
      cases hnext
    · exact (hvalue around (Except.ok.inj h).symm).elim
  | firstKey around =>
    simp only [State.step] at h
    split at h
    · next key hkind =>
      cases h
      unfold State.afterFirstKey at hnext
      split_ifs at hnext with hkey
      · exact .inr (hkey ▸ hkind)
      · cases hnext
    · exact (hvalue around (Except.ok.inj h).symm).elim
    · cases h
  | nextKey around =>
    simp only [State.step] at h
    split at h
    · cases h
      cases hnext
    · cases h
    · cases h
  | afterKey around =>
    simp only [State.step] at h
    split_ifs at h
    cases h
    cases hnext
  | afterEmbeddedKey around | embedded around => exact .inl rfl
  | afterEmbedded around =>
    simp only [State.step] at h
    split_ifs at h
    exact (hvalue around (Except.ok.inj h).symm).elim
  | done => cases h

theorem embedded_of_checkEmbedded {inner : Text → Except Report Unit} {s : State} {r : Report}
    (h : checkEmbedded inner (s.embeddedText? t) = .error r) :
    ∃ embedded, s.awaitsEmbedded = true ∧ t.kind = .string embedded ∧
      inner embedded = .error r := by
  unfold State.embeddedText? at h
  split at h
  · next around embedded hkind => exact ⟨embedded, rfl, hkind, h⟩
  · cases h

/-- A run over the tokens of a text reports a fault of one of its steps, or what the check of an
embedded text reports. -/
theorem State.report_of_run {inner : Text → Except Report Unit} {text : Text} {s : State}
    {ts : List Token} (hts : ∀ t ∈ ts, EndsBy n t) {r : Report}
    (h : s.run inner text ts = .error r) :
    (∃ fault : Fault, fault.taken ≤ n ∧ r = fault.report text) ∨
      ∃ embedded, (∃ t ∈ ts, t.kind = .string embedded) ∧
        (s.awaitsEmbedded = true ∨ ∃ t ∈ ts, t.kind = .string embeddedKey) ∧
        inner embedded = .error r := by
  induction ts generalizing s with
  | nil => cases h
  | cons t ts ih =>
    simp only [State.run, bind, Except.bind] at h
    cases hstep : s.step t with
    | error fault =>
      rw [hstep] at h
      cases h
      exact .inl ⟨fault, s.step_faultsBy (hts t List.mem_cons_self) fault hstep, rfl⟩
    | ok next =>
      simp only [hstep, Except.mapError] at h
      cases hinner : checkEmbedded inner (s.embeddedText? t) with
      | error r' =>
        rw [hinner] at h
        cases h
        obtain ⟨embedded, hs, hkind, hrefused⟩ := embedded_of_checkEmbedded hinner
        exact .inr ⟨embedded, ⟨t, List.mem_cons_self, hkind⟩, .inl hs, hrefused⟩
      | ok =>
        rw [hinner] at h
        rcases ih (fun t ht => hts t (List.mem_cons_of_mem _ ht)) h with hfault | hembedded
        · exact .inl hfault
        · obtain ⟨embedded, ⟨u, hu, hkind⟩, hkey, hrefused⟩ := hembedded
          refine .inr ⟨embedded, ⟨u, List.mem_cons_of_mem _ hu, hkind⟩, ?_, hrefused⟩
          rcases hkey with hnext | ⟨k, hk, hkey⟩
          · rcases State.awaitsEmbedded_of_step hstep hnext with hs | ht
            · exact .inl hs
            · exact .inr ⟨t, List.mem_cons_self, ht⟩
          · exact .inr ⟨k, List.mem_cons_of_mem _ hk, hkey⟩

end Check

/-- The strings of `text` include `embedded`, and the key that announces an embedded text. -/
def Embeds (text embedded : Text) : Prop :=
  (∃ t ∈ (tokens (.start text)).1, t.kind = .string embeddedKey) ∧
    ∃ t ∈ (tokens (.start text)).1, t.kind = .string embedded

/-- **The check reports a fault inside the text**, or what it reports of an embedded text. -/
theorem report_of_check {text : Text} {r : Report} (h : check text = .error r) :
    (∃ fault : Fault, fault.taken ≤ Text.size text ∧ r = fault.report text) ∨
      ∃ embedded, Embeds text embedded ∧ embedded.length < text.length ∧
        check embedded = .error r := by
  have hends := tokens_endBy (.start text)
  rw [show (Cursor.start text).endOffset = Text.size text from Nat.zero_add _] at hends
  unfold Embeds
  rw [check] at h
  generalize tokens (.start text) = p at h hends ⊢
  obtain ⟨ts, ending⟩ := p
  simp only [bind, Except.bind] at h
  split at h
  · next r' hrun =>
    cases h
    rcases State.report_of_run hends.1 hrun with hfault | ⟨embedded, hheld, hkey, hinner⟩
    · exact .inl hfault
    · split_ifs at hinner with hlength
      exact .inr ⟨embedded, ⟨hkey.resolve_left Bool.false_ne_true, hheld⟩, hlength, hinner⟩
  · next s hrun =>
    cases hclose : s.close ending with
    | error fault =>
      rw [hclose] at h
      cases h
      exact .inl ⟨fault, s.close_faultsBy hends.2 fault hclose, rfl⟩
    | ok =>
      rw [hclose] at h
      cases h

end Strict

end LocaleStrings.Json
