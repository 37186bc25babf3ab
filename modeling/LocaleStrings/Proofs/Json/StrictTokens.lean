import LocaleStrings.Proofs.Json.Escapes
import Mathlib.Data.List.TakeWhile

/-!
# Strict tokens and the grammar

The strict readers read exactly the lexemes of the grammar.

* `Cursor.Reads`: the place behind a part that stands at a cursor;
* soundness: what a reader takes is written as the grammar says (`Strict.number_reads`,
  `Strict.string_reads`, `Strict.token_reads`);
* completeness: a reader takes a lexeme whole, if what follows cannot prolong it
  (`Strict.number_of_text`, `Strict.string_of_text`, `Strict.token_of_lexeme`);
* **`Strict.spelled_of_tokens`**, **`Strict.tokens_of_spelled`**: a text whose tokens are all read
  is their written form, and the written form of separated tokens is read as these tokens.
-/

namespace LocaleStrings.Json

namespace Cursor

/-- `taken` stands at `a`, and `b` is the place behind it. -/
def Reads (a : Cursor) (taken : Text) (b : Cursor) : Prop :=
  a.rest = taken ++ b.rest ∧ b.offset = a.offset + Text.size taken

theorem Reads.refl (a : Cursor) : a.Reads [] a := ⟨rfl, rfl⟩

theorem Reads.trans {a b c : Cursor} {s t : Text} (h : a.Reads s b) (h' : b.Reads t c) :
    a.Reads (s ++ t) c := by
  refine ⟨by rw [h.1, h'.1, List.append_assoc], ?_⟩
  rw [h'.2, h.2, Text.size_append, Nat.add_assoc]

theorem reads_push {a : Cursor} {c : Char} {cs : Text} (h : a.rest = c :: cs) :
    a.Reads [c] (a.push c cs) := ⟨h, rfl⟩

theorem reads_skip (p : Char → Bool) (a : Cursor) : a.Reads (a.rest.takeWhile p) (a.skip p) :=
  ⟨(List.takeWhile_append_dropWhile ..).symm, rfl⟩

theorem Reads.upTo {a b : Cursor} {t : Text} (h : a.Reads t b) : a.upTo b = t := by
  rw [Cursor.upTo, h.1, h.2, Nat.add_sub_cancel_left, Text.within_size_append]

/-- A run of characters ends where the next character is of another class. -/
theorem skip_append {p : Char → Bool} {t r : Text} (ht : ∀ c ∈ t, p c = true)
    (hr : ∀ c ∈ r.head?, p c = false) (o : Nat) :
    (⟨o, t ++ r⟩ : Cursor).skip p = ⟨o + Text.size t, r⟩ := by
  rw [skip, Text.takeWhile_append_of_stop ht hr, Text.dropWhile_append_of_stop ht hr]

end Cursor

namespace Strict

open Cursor

/-! ## Words and numbers are read as written -/

theorem word_reads {expected : Text} {cur next : Cursor} (h : word expected cur = .ok next) :
    cur.Reads expected next := by
  induction expected generalizing cur with
  | nil =>
    cases h
    exact Reads.refl _
  | cons e es ih =>
    rw [word] at h
    split at h
    · cases h
    · next c cs hc =>
      split_ifs at h with he
      subst he
      exact (reads_push hc).trans (ih h)

theorem digit_skip_reads {cur : Cursor} {c : Char} {cs : Text} (hc : cur.rest = c :: cs) :
    ∃ ds, (∀ d ∈ ds, Ascii.isDigit d = true) ∧
      cur.Reads (c :: ds) ((cur.push c cs).skip Ascii.isDigit) :=
  ⟨cs.takeWhile Ascii.isDigit, fun _ hd => List.mem_takeWhile_imp hd,
    (reads_push hc).trans (reads_skip _ _)⟩

theorem integerPart_reads {cur next : Cursor} (h : integerPart cur = .ok next) :
    ∃ i, IntegerText i ∧ cur.Reads i next := by
  rw [integerPart] at h
  split at h
  · cases h
  · next c cs hc =>
    simp only at h
    split_ifs at h with hz hd hd
    · cases h
      subst hz
      exact ⟨_, .zero, reads_push hc⟩
    · cases h
      obtain ⟨ds, hds, hr⟩ := digit_skip_reads hc
      exact ⟨_, .digits hd hz hds, hr⟩

theorem fractionPart_reads {cur next : Cursor} (h : fractionPart cur = .ok next) :
    ∃ f, FractionText f ∧ cur.Reads f next := by
  rw [fractionPart] at h
  split at h
  · next cs hc =>
    simp only at h
    split at h
    · cases h
    · next d ds =>
      split_ifs at h with hd
      cases h
      refine ⟨'.' :: (d :: ds).takeWhile Ascii.isDigit, ?_, (reads_push hc).trans (reads_skip _ _)⟩
      rw [List.takeWhile_cons_of_pos hd]
      exact .point hd fun _ hc => List.mem_takeWhile_imp hc
  · cases h
    exact ⟨[], .none, Reads.refl _⟩

theorem skipSign_reads (cur : Cursor) : ∃ s, SignText s ∧ cur.Reads s cur.skipSign := by
  rw [skipSign]
  split
  · next hc => exact ⟨_, .plus, reads_push hc⟩
  · next hc => exact ⟨_, .minus, reads_push hc⟩
  · exact ⟨_, .none, Reads.refl _⟩

theorem exponentDigits_reads {cur next : Cursor} (h : exponentDigits cur = .ok next) :
    ∃ d ds, Ascii.isDigit d = true ∧ (∀ c ∈ ds, Ascii.isDigit c = true) ∧
      cur.Reads (d :: ds) next := by
  rw [exponentDigits] at h
  split at h
  · cases h
  · next d ds hc =>
    split_ifs at h with hd
    cases h
    have hr := reads_skip Ascii.isDigit cur
    rw [hc, List.takeWhile_cons_of_pos hd] at hr
    exact ⟨d, _, hd, fun _ hc => List.mem_takeWhile_imp hc, hr⟩

theorem exponentPart_reads {cur next : Cursor} (h : exponentPart cur = .ok next) :
    ∃ e, ExponentText e ∧ cur.Reads e next := by
  rw [exponentPart] at h
  split at h
  · cases h
    exact ⟨[], .none, Reads.refl _⟩
  · next c cs hc =>
    split_ifs at h with he
    · obtain ⟨s, hs, hsign⟩ := skipSign_reads (cur.push c cs)
      obtain ⟨d, ds, hd, hds, hr⟩ := exponentDigits_reads h
      exact ⟨_, .exponent he hs hd hds, (reads_push hc).trans (hsign.trans hr)⟩
    · cases h
      exact ⟨[], .none, Reads.refl _⟩

theorem overrun?_eq_none_iff (d : Decimal) : d.overrun? = none ↔ d.value?.isSome = true := by
  unfold Decimal.overrun?
  cases d.value? <;> simp

theorem number_reads {cur next : Cursor} (h : number cur = .ok next) :
    ∃ t, NumberText t ∧ cur.Reads t next := by
  simp only [number, bind, Except.bind] at h
  split at h
  · cases h
  · next a ha =>
    split at h
    · cases h
    · next b hb =>
      split at h
      · cases h
      · next c hc =>
        obtain ⟨i, hi, hri⟩ := integerPart_reads ha
        obtain ⟨f, hf, hrf⟩ := fractionPart_reads hb
        obtain ⟨e, he, hre⟩ := exponentPart_reads hc
        have hr := hri.trans (hrf.trans hre)
        split at h
        · cases h
        · next hover =>
          cases h
          rw [hr.upTo] at hover
          exact ⟨_, .mk hi hf he ((overrun?_eq_none_iff _).mp hover), hr⟩

/-! ## Strings are read as written -/

theorem hex4_reads {cur next : Cursor} {n : Nat} (h : hex4 cur = .ok (n, next)) :
    ∃ a b c d, IsHex4 a b c d n ∧ cur.Reads [a, b, c, d] next := by
  rw [hex4] at h
  split at h
  · next a b c d cs hc =>
    split at h
    · next n' hn =>
      cases h
      exact ⟨a, b, c, d, hexValue4?_eq_some_iff.mp hn, (reads_push hc).trans ((reads_push rfl).trans
        ((reads_push rfl).trans (reads_push rfl)))⟩
    · cases h
  · cases h

theorem continuation_reads {expected : Char} {cur next : Cursor}
    (h : continuation expected cur = .ok next) : cur.Reads [expected] next := by
  rw [continuation] at h
  split at h
  · cases h
  · next c cs hc =>
    split_ifs at h with he
    cases h
    subst he
    exact reads_push hc

/-- `written` behind a backslash is an escape that stands for `e`, whatever follows it. -/
def IsEscape (written : Text) (e : Char) : Prop :=
  ∀ w v, StringText w v → StringText ('\\' :: (written ++ w)) (e :: v)

theorem unicodeEscape_reads {cur next : Cursor} {e : Char}
    (h : unicodeEscape cur = .ok (e, next)) :
    ∃ t, IsEscape ('u' :: t) e ∧ cur.Reads t next := by
  simp only [unicodeEscape, bind, Except.bind, pure, Except.pure] at h
  split at h
  · cases h
  · next p hp =>
    obtain ⟨n, behind⟩ := p
    obtain ⟨a, b, c, d, hn, hr⟩ := hex4_reads hp
    simp only at h
    split_ifs at h with hlow hhigh
    · -- the first half of a pair: a second escape must follow
      split at h
      · cases h
      · next q hq =>
        split at h
        · cases h
        · next r hr' =>
          split at h
          · cases h
          · next p' hp' =>
            obtain ⟨m, last⟩ := p'
            obtain ⟨a', b', c', d', hm, hlast⟩ := hex4_reads hp'
            simp only at h
            split_ifs at h with hlow'
            simp only [Except.ok.injEq, Prod.mk.injEq] at h
            obtain ⟨rfl, rfl⟩ := h
            obtain ⟨hbeyond, hfirst, hsecond⟩ := halves_ofSurrogates hhigh hlow'
            refine ⟨_, fun w v hw => ?_, hr.trans
              ((continuation_reads hq).trans ((continuation_reads hr').trans hlast))⟩
            exact .pair hbeyond (hfirst.symm ▸ hn) (hsecond.symm ▸ hm) hw
    · cases h
      have hchar := toNat_ofNat_of_not_surrogate hn.lt hhigh hlow
      refine ⟨[a, b, c, d], fun w v hw => ?_, hr⟩
      exact .number (hchar.symm ▸ hn) hw

theorem escape_reads {cur next : Cursor} {e : Char} (h : escape cur = .ok (e, next)) :
    ∃ t, IsEscape t e ∧ cur.Reads t next := by
  rw [escape] at h
  split at h
  · cases h
  · next c cs hc =>
    split_ifs at h with hu
    · obtain ⟨t, ht, hr⟩ := unicodeEscape_reads h
      subst hu
      exact ⟨'u' :: t, ht, (reads_push hc).trans hr⟩
    · split at h
      · next he =>
        cases h
        exact ⟨[c], fun w v hw => .letter (escaped?_eq_some_iff.mp he) hw, reads_push hc⟩
      · cases h

theorem string_reads {cur next : Cursor} {v : Text} (h : string cur = .ok (v, next)) :
    ∃ w, StringText w v ∧ cur.Reads (w ++ ['"']) next := by
  fun_induction string cur generalizing v next with
  | case1 => cases h
  | case2 cur cs hr =>
    cases h
    exact ⟨[], .nil, reads_push hr⟩
  | case3 => cases h
  | case4 => cases h
  | case5 => cases h
  | case6 =>
    rename_i hs hr _ _ _ he ih
    cases h
    obtain ⟨t, ht, hrt⟩ := escape_reads he
    obtain ⟨w, hw, hrw⟩ := ih hs
    exact ⟨_, ht w _ hw, by simpa using (reads_push hr).trans (hrt.trans hrw)⟩
  | case7 => cases h
  | case8 =>
    rename_i hr _ hq hc hb _ _ hs ih
    cases h
    obtain ⟨w, hw, hrw⟩ := ih hs
    exact ⟨_, .plain hq hb hc hw, (reads_push hr).trans hrw⟩

/-! ## Tokens are read as written -/

theorem token_reads {cur next : Cursor} {c : Char} {cs : Text} {kind : Kind}
    (hc : cur.rest = c :: cs) (h : token cur c cs = .ok (kind, next)) :
    ∃ l, Lexeme l kind ∧ cur.Reads l next := by
  have first := reads_push hc
  simp only [token] at h
  split at h
  · next k hk =>
    cases h
    exact ⟨_, .mark (Kind.ofMark?_eq_some_iff.mp hk), first⟩
  · split_ifs at h with hq hm hd ht hf hn
    · obtain ⟨⟨v, last⟩, hs, he⟩ := Except.exists_of_map_eq_ok h
      cases he
      obtain ⟨w, hw, hr⟩ := string_reads hs
      subst hq
      exact ⟨_, .string hw, first.trans hr⟩
    · obtain ⟨last, hs, he⟩ := Except.exists_of_map_eq_ok h
      cases he
      obtain ⟨t, ht, hr⟩ := number_reads hs
      subst hm
      exact ⟨_, .negative ht, first.trans hr⟩
    · obtain ⟨last, hs, he⟩ := Except.exists_of_map_eq_ok h
      cases he
      obtain ⟨t, ht, hr⟩ := number_reads hs
      exact ⟨t, .number ht, hr⟩
    · obtain ⟨last, hs, he⟩ := Except.exists_of_map_eq_ok h
      cases he
      subst ht
      exact ⟨_, .true, first.trans (word_reads hs)⟩
    · obtain ⟨last, hs, he⟩ := Except.exists_of_map_eq_ok h
      cases he
      subst hf
      exact ⟨_, .false, first.trans (word_reads hs)⟩
    · obtain ⟨last, hs, he⟩ := Except.exists_of_map_eq_ok h
      cases he
      subst hn
      exact ⟨_, .null, first.trans (word_reads hs)⟩

/-- **A text whose tokens are all read is their written form.** -/
theorem spelled_of_tokens {cur : Cursor} {ts : List Token} {n : Nat}
    (h : tokens cur = (ts, .finished n)) : Spelled cur.offset cur.rest ts := by
  fun_induction tokens cur generalizing ts n with
  | case1 cur =>
    rename_i hr
    cases h
    have hskip := reads_skip isBlank cur
    rw [Reads, hr, List.append_nil] at hskip
    rw [hskip.1]
    exact .nil (isGap_iff.mpr fun _ hb => List.mem_takeWhile_imp hb)
  | case2 => cases h
  | case3 cur =>
    rename_i hr kind next ht others ending hrest ih
    cases h
    have hskip := reads_skip isBlank cur
    obtain ⟨l, hl, hread⟩ := token_reads hr ht
    have hrest' : Spelled next.offset next.rest others := ih hrest
    rw [hskip.1, hread.1, Token.between, hread.upTo, hskip.2]
    refine .cons (isGap_iff.mpr fun _ hb => List.mem_takeWhile_imp hb) hl ?_
    rwa [← hskip.2, ← hread.2]

/-! ## What may follow a token -/

/-- The characters that end a number or word: blanks, brackets and marks. -/
def delimiters : Text := [' ', '\n', '\t', '\r', '\x7b', '\x7d', '[', ']', ',', ':']

/-- A text that cannot prolong a number or word before it. -/
def Delimited (r : Text) : Prop := ∀ c ∈ r.head?, c ∈ delimiters

theorem mem_delimiters_of_isGap {t : Text} (h : IsGap t) : ∀ c ∈ t, c ∈ delimiters := by
  intro c hc
  have hall : ∀ c ∈ [' ', '\t', '\n', '\r'], c ∈ delimiters := Text.forall_of_all (by decide)
  exact hall c (h c hc)

theorem mem_delimiters_of_mark {c : Char} {k : Kind} (h : Mark c k) : c ∈ delimiters := by
  cases h <;> decide

theorem Delimited.stops {p : Char → Bool} {r : Text} (h : Delimited r)
    (hp : ∀ c ∈ delimiters, p c = false) : ∀ c ∈ r.head?, p c = false :=
  fun c hc => hp c (h c hc)

/-- The written form of tokens starts with a delimiter, if it does not start with a lexeme of
several characters. -/
theorem delimited_of_spelled {o : Nat} {text : Text} {ts : List Token} (h : Spelled o text ts)
    (hts : ∀ t ∈ ts.head?, t.kind.isMark = true) : Delimited text := by
  have blank_first : ∀ {blanks r : Text}, IsGap blanks → Delimited r →
      Delimited (blanks ++ r) := by
    intro blanks r hb hr c hc
    cases blanks with
    | nil => exact hr c hc
    | cons b bs =>
      obtain rfl : b = c := by simpa using hc
      exact mem_delimiters_of_isGap hb b List.mem_cons_self
  cases h with
  | nil hb =>
    rw [← List.append_nil text]
    exact blank_first hb (by simp [Delimited])
  | @cons _ blanks lexeme rest kind ts hb hl h =>
    refine blank_first hb fun c hc => ?_
    have hk : kind.isMark = true := hts _ rfl
    cases hl with
    | mark hm =>
      obtain rfl : _ = c := by simpa using hc
      exact mem_delimiters_of_mark hm
    | string | number | negative | true | false | null => cases hk

/-! ## Numbers are read whole -/

theorem head?_fractionText_append {f r : Text} (h : FractionText f) :
    ∀ c ∈ (f ++ r).head?, c = '.' ∨ c ∈ r.head? := by
  intro c hc
  cases h with
  | none => exact .inr hc
  | point => exact .inl (by simpa using hc.symm)

theorem head?_exponentText_append {e r : Text} (h : ExponentText e) :
    ∀ c ∈ (e ++ r).head?, (c = 'e' ∨ c = 'E') ∨ c ∈ r.head? := by
  intro c hc
  cases h with
  | none => exact .inr hc
  | exponent he =>
    obtain rfl : _ = c := by simpa using hc
    exact .inl he

theorem integerPart_of_text {i r : Text} (h : IntegerText i)
    (hr : ∀ c ∈ r.head?, Ascii.isDigit c = false) (o : Nat) :
    integerPart ⟨o, i ++ r⟩ = .ok ⟨o + Text.size i, r⟩ := by
  cases h with
  | zero =>
    have hstop : r.head?.any Ascii.isDigit = false := by
      cases r with
      | nil => rfl
      | cons c cs => exact hr c rfl
    simp only [integerPart, List.singleton_append, if_true, push, hstop]
    rfl
  | @digits d ds hd hz hds =>
    have hskip := skip_append hds hr (o + d.utf8Size)
    simp only [integerPart, List.cons_append, if_neg hz, if_pos hd, push, hskip]
    rw [Text.size_cons, Nat.add_assoc]

theorem fractionPart_of_text {f r : Text} (h : FractionText f)
    (hr : ∀ c ∈ r.head?, Ascii.isDigit c = false) (hpoint : f = [] → r.head? ≠ some '.')
    (o : Nat) : fractionPart ⟨o, f ++ r⟩ = .ok ⟨o + Text.size f, r⟩ := by
  cases h with
  | none =>
    rw [fractionPart]
    split
    · next cs hc =>
      have hhead : r.head? = some '.' := congrArg List.head? hc
      exact absurd hhead (hpoint rfl)
    · rfl
  | @point d ds hd hds =>
    have hall : ∀ c ∈ d :: ds, Ascii.isDigit c = true := by
      intro c hc
      rcases List.mem_cons.mp hc with rfl | hc
      · exact hd
      · exact hds c hc
    have hskip := skip_append hall hr (o + '.'.utf8Size)
    simp only [fractionPart, List.cons_append, if_pos hd, push] at hskip ⊢
    rw [hskip]
    simp only [Text.size_cons, Nat.add_assoc]

theorem skipSign_of_text {s : Text} (h : SignText s) {d : Char} (hd : Ascii.isDigit d = true)
    (ds : Text) (o : Nat) :
    (⟨o, s ++ d :: ds⟩ : Cursor).skipSign = ⟨o + Text.size s, d :: ds⟩ := by
  cases h with
  | none =>
    rw [skipSign]
    split
    · next hc =>
      obtain ⟨rfl, -⟩ := List.cons.inj hc
      exact absurd hd (by decide)
    · next hc =>
      obtain ⟨rfl, -⟩ := List.cons.inj hc
      exact absurd hd (by decide)
    · rfl
  | plus => rfl
  | minus => rfl

theorem exponentPart_of_text {e r : Text} (h : ExponentText e)
    (hr : ∀ c ∈ r.head?, Ascii.isDigit c = false)
    (hexp : e = [] → ∀ c ∈ r.head?, ¬ (c = 'e' ∨ c = 'E')) (o : Nat) :
    exponentPart ⟨o, e ++ r⟩ = .ok ⟨o + Text.size e, r⟩ := by
  cases h with
  | none =>
    rw [exponentPart]
    split
    · rfl
    · next c cs hc =>
      have hhead : r.head? = some c := congrArg List.head? hc
      rw [if_neg (hexp rfl c hhead)]
      rfl
  | @exponent e d sign ds he hs hd hds =>
    have hall : ∀ c ∈ d :: ds, Ascii.isDigit c = true := by
      intro c hc
      rcases List.mem_cons.mp hc with rfl | hc
      · exact hd
      · exact hds c hc
    have hsign := skipSign_of_text hs hd (ds ++ r) (o + e.utf8Size)
    have hskip := skip_append hall hr (o + e.utf8Size + Text.size sign)
    simp only [exponentPart, List.cons_append, List.append_assoc, if_pos he, push] at hskip ⊢
    rw [hsign, exponentDigits]
    simp only [if_pos hd, hskip]
    simp only [Text.size_cons, Text.size_append, Nat.add_assoc]

/-- **A number is read whole, if a delimiter or nothing follows it.** -/
theorem number_of_text {t r : Text} (h : NumberText t) (hr : Delimited r) (o : Nat) :
    number ⟨o, t ++ r⟩ = .ok ⟨o + Text.size t, r⟩ := by
  obtain @⟨i, f, e, hi, hf, he, hrange⟩ := h
  have hdigit : ∀ c ∈ r.head?, Ascii.isDigit c = false := hr.stops (Text.forall_of_all (by decide))
  have hpoint : ∀ c ∈ r.head?, ¬ c = '.' := fun c hc =>
    (show ∀ c ∈ delimiters, ¬ c = '.' from Text.forall_of_all (by decide)) c (hr c hc)
  have hexp : ∀ c ∈ r.head?, ¬ (c = 'e' ∨ c = 'E') := fun c hc =>
    (show ∀ c ∈ delimiters, ¬ (c = 'e' ∨ c = 'E') from Text.forall_of_all (by decide)) c (hr c hc)
  -- what follows the fraction, and what follows the integer, starts with no digit
  have hdigit_e : ∀ c ∈ (e ++ r).head?, Ascii.isDigit c = false := by
    intro c hc
    rcases head?_exponentText_append he c hc with (rfl | rfl) | hc
    · rfl
    · rfl
    · exact hdigit c hc
  have hdigit_f : ∀ c ∈ (f ++ (e ++ r)).head?, Ascii.isDigit c = false := by
    intro c hc
    rcases head?_fractionText_append hf c hc with rfl | hc
    · rfl
    · exact hdigit_e c hc
  have hpoint_e : f = [] → (e ++ r).head? ≠ some '.' := by
    intro _ hc
    rcases head?_exponentText_append he '.' hc with (h | h) | hc
    · exact absurd h (by decide)
    · exact absurd h (by decide)
    · exact hpoint '.' hc rfl
  have hread : (⟨o, i ++ (f ++ (e ++ r))⟩ : Cursor).Reads (i ++ (f ++ e))
      ⟨o + Text.size i + Text.size f + Text.size e, r⟩ :=
    ⟨by simp, by simp only [Text.size_append]; omega⟩
  rw [List.append_assoc, List.append_assoc, number, integerPart_of_text hi hdigit_f]
  simp only [bind, Except.bind]
  rw [fractionPart_of_text hf hdigit_e hpoint_e]
  simp only
  rw [exponentPart_of_text he hdigit (fun _ => hexp)]
  simp only
  rw [hread.upTo, (overrun?_eq_none_iff _).mpr hrange]
  simp only [pure, Except.pure, Text.size_append, Nat.add_assoc]

/-! ## Strings are read whole -/

theorem hex4_of_text {a b c d : Char} {n : Nat} (h : IsHex4 a b c d n) (r : Text) (o : Nat) :
    hex4 ⟨o, a :: b :: c :: d :: r⟩ = .ok (n, ⟨o + Text.size [a, b, c, d], r⟩) := by
  simp only [hex4, hexValue4?_eq_some_iff.mpr h, push, Text.size_cons, Text.size_nil, Nat.add_assoc,
    Nat.add_zero]

theorem unicodeEscape_of_number {a b c d x : Char} (h : IsHex4 a b c d x.toNat) (r : Text)
    (o : Nat) :
    unicodeEscape ⟨o, a :: b :: c :: d :: r⟩ = .ok (x, ⟨o + Text.size [a, b, c, d], r⟩) := by
  obtain ⟨hhigh, hlow⟩ := not_surrogate_toNat x
  simp only [unicodeEscape, hex4_of_text h, bind, Except.bind, if_neg hlow, if_neg hhigh,
    Char.ofNat_toNat]
  rfl

theorem not_low_of_high {n : Nat} (h : isHighSurrogate n = true) : ¬ isLowSurrogate n = true := by
  rw [isHighSurrogate_iff] at h
  rw [isLowSurrogate_iff]
  omega

theorem unicodeEscape_of_pair {a b c d a' b' c' d' x : Char} (hx : 0x10000 ≤ x.toNat)
    (hfirst : IsHex4 a b c d (0xD800 + (x.toNat - 0x10000) / 0x400))
    (hsecond : IsHex4 a' b' c' d' (0xDC00 + (x.toNat - 0x10000) % 0x400)) (r : Text) (o : Nat) :
    unicodeEscape ⟨o, a :: b :: c :: d :: '\\' :: 'u' :: a' :: b' :: c' :: d' :: r⟩
      = .ok (x, ⟨o + Text.size [a, b, c, d, '\\', 'u', a', b', c', d'], r⟩) := by
  obtain ⟨hhigh, hlow, hpair⟩ := ofSurrogates_halves hx
  simp only [unicodeEscape, hex4_of_text hfirst, bind, Except.bind, if_neg (not_low_of_high hhigh),
    if_pos hhigh, continuation, if_true, push, hex4_of_text hsecond, if_pos hlow, hpair]
  simp only [pure, Except.pure, Text.size_cons, Text.size_nil, Nat.add_assoc, Nat.add_zero]

theorem escape_of_letter {e c : Char} (h : LetterEscape e c) (r : Text) (o : Nat) :
    escape ⟨o, e :: r⟩ = .ok (c, ⟨o + e.utf8Size, r⟩) := by
  have hu : e ≠ 'u' := by
    rintro rfl
    cases h
  simp only [escape, if_neg hu, escaped?_eq_some_iff.mpr h, push]

theorem escape_u (o : Nat) (cs : Text) :
    escape ⟨o, 'u' :: cs⟩ = unicodeEscape ⟨o + 'u'.utf8Size, cs⟩ := rfl

/-- One step of reading a string. -/
theorem string_cons (o : Nat) (c : Char) (cs : Text) :
    string ⟨o, c :: cs⟩ =
      if c = '"' then .ok ([], ⟨o + c.utf8Size, cs⟩)
      else if c < ' ' then .error ⟨.controlCharacter, o + 1⟩
      else if c = '\\' then
        (escape ⟨o + c.utf8Size, cs⟩).bind fun (e, next) =>
          (string next).map fun (v, last) => (e :: v, last)
      else (string ⟨o + c.utf8Size, cs⟩).map fun (v, last) => (c :: v, last) := by
  rw [string]
  simp only [push]
  split_ifs
  · rfl
  · rfl
  · split
    · next he => rw [he]; rfl
    · next e next he =>
      rw [he]
      simp only [Except.bind]
      cases string next <;> rfl
  · cases string ⟨o + c.utf8Size, cs⟩ <;> rfl

theorem string_of_escape {o : Nat} {cs v : Text} {e : Char} {next last : Cursor}
    (he : escape ⟨o + '\\'.utf8Size, cs⟩ = .ok (e, next)) (hs : string next = .ok (v, last)) :
    string ⟨o, '\\' :: cs⟩ = .ok (e :: v, last) := by
  rw [string_cons, if_neg (by decide), if_neg (by decide), if_pos rfl, he]
  simp only [Except.bind, hs]
  rfl

/-- **The characters between quotes are read as the text they stand for.** -/
theorem string_of_text {w v : Text} (h : StringText w v) (r : Text) (o : Nat) :
    string ⟨o, w ++ '"' :: r⟩ = .ok (v, ⟨o + Text.size (w ++ ['"']), r⟩) := by
  induction h generalizing o with
  | nil =>
    rw [List.nil_append, string_cons, if_pos rfl]
    rfl
  | @plain c w v hq hb hc h ih =>
    rw [List.cons_append, string_cons, if_neg hq, if_neg hc, if_neg hb, ih]
    simp only [Except.map, List.cons_append, Text.size_cons, Nat.add_assoc]
  | @letter e c w v he h ih =>
    refine (string_of_escape (escape_of_letter he _ _) (ih _)).trans ?_
    simp only [List.cons_append, Text.size_cons, Nat.add_assoc]
  | @number a b c d x w v hn h ih =>
    have he : escape ⟨o + '\\'.utf8Size, 'u' :: a :: b :: c :: d :: (w ++ '"' :: r)⟩ = _ :=
      (escape_u _ _).trans (unicodeEscape_of_number hn _ _)
    refine (string_of_escape he (ih _)).trans ?_
    simp only [List.cons_append, Text.size_cons, Text.size_nil, Nat.add_assoc, Nat.add_zero]
  | @pair a b c d a' b' c' d' x w v hx hhigh hlow h ih =>
    have he : escape ⟨o + '\\'.utf8Size, 'u' :: a :: b :: c :: d :: '\\' :: 'u' :: a' :: b' :: c'
        :: d' :: (w ++ '"' :: r)⟩ = _ :=
      (escape_u _ _).trans (unicodeEscape_of_pair hx hhigh hlow _ _)
    refine (string_of_escape he (ih _)).trans ?_
    simp only [List.cons_append, Text.size_cons, Text.size_nil, Nat.add_assoc, Nat.add_zero]

/-! ## Tokens are read whole -/

theorem word_of_text (w r : Text) (o : Nat) : word w ⟨o, w ++ r⟩ = .ok ⟨o + Text.size w, r⟩ := by
  induction w generalizing o with
  | nil => rfl
  | cons c cs ih =>
    simp only [word, List.cons_append, if_true, push, ih, Text.size_cons, Nat.add_assoc]

theorem token_of_word {c : Char} {w : Text} {k : Kind}
    (h : ∀ cur cs, token cur c cs = (word w (cur.push c cs)).map fun last => (k, last))
    (r : Text) (o : Nat) :
    token ⟨o, c :: (w ++ r)⟩ c (w ++ r) = .ok (k, ⟨o + Text.size (c :: w), r⟩) := by
  rw [h, push, word_of_text]
  simp only [Except.map, Text.size_cons, Nat.add_assoc]

/-- **A token is read whole**, if a delimiter or nothing follows it, or if it is a mark itself. -/
theorem token_of_lexeme {l r : Text} {k : Kind} (h : Lexeme l k)
    (hr : k.isMark = true ∨ Delimited r) (o : Nat) :
    ∃ c cs, l = c :: cs ∧
      token ⟨o, c :: (cs ++ r)⟩ c (cs ++ r) = .ok (k, ⟨o + Text.size l, r⟩) := by
  cases h with
  | @mark c k hm =>
    refine ⟨c, [], rfl, ?_⟩
    simp only [token, Kind.ofMark?_eq_some_iff.mpr hm, push]
    rfl
  | @string w v hw =>
    refine ⟨'"', _, rfl, ?_⟩
    have hs := string_of_text hw r (o + '"'.utf8Size)
    have hm : Kind.ofMark? '"' = none := rfl
    simp only [token, hm, if_true, push, List.append_assoc, List.singleton_append, hs, Except.map,
      Text.size_cons, Nat.add_assoc]
  | @number t ht =>
    have hdel : Delimited r := hr.resolve_left (by decide)
    obtain ⟨d, ds, rfl, hd⟩ := NumberText.head ht
    refine ⟨d, ds, rfl, ?_⟩
    have hfirst : ∀ c ∈ "0123456789".toList,
        Kind.ofMark? c = none ∧ c ≠ '"' ∧ c ≠ '-' := Text.forall_of_all (by decide)
    obtain ⟨hm, hq, hminus⟩ := hfirst d (mem_digits_of_isDigit hd)
    have hn := number_of_text ht hdel o
    rw [List.cons_append] at hn
    simp only [token, hm, if_neg hq, if_neg hminus, if_pos hd, hn, Except.map]
  | @negative t ht =>
    have hdel : Delimited r := hr.resolve_left (by decide)
    refine ⟨'-', t, rfl, ?_⟩
    have hm : Kind.ofMark? '-' = none := rfl
    have hn := number_of_text ht hdel (o + '-'.utf8Size)
    simp only [token, hm, if_neg (show ¬ '-' = '"' by decide), if_true, push, hn, Except.map,
      Text.size_cons, Nat.add_assoc]
  | true => exact ⟨'t', ['r', 'u', 'e'], rfl, token_of_word (fun _ _ => rfl) r o⟩
  | false => exact ⟨'f', ['a', 'l', 's', 'e'], rfl, token_of_word (fun _ _ => rfl) r o⟩
  | null => exact ⟨'n', ['u', 'l', 'l'], rfl, token_of_word (fun _ _ => rfl) r o⟩

/-- One step of cutting a text into tokens. -/
theorem tokens_cons {cur next : Cursor} {o : Nat} {c : Char} {cs : Text} {k : Kind}
    (hskip : cur.skip isBlank = ⟨o, c :: cs⟩) (ht : token ⟨o, c :: cs⟩ c cs = .ok (k, next)) :
    tokens cur = (.between ⟨o, c :: cs⟩ next k :: (tokens next).1, (tokens next).2) := by
  rw [tokens]
  simp only
  split
  · next hr =>
    rw [hskip] at hr
    cases hr
  · next c' cs' hr =>
    rw [hskip] at hr
    obtain ⟨rfl, rfl⟩ := List.cons.inj hr
    split
    · next ht' =>
      rw [hskip, ht] at ht'
      cases ht'
    · next k' next' ht' =>
      rw [hskip, ht] at ht'
      cases ht'
      rw [hskip]

theorem isBlank_eq_false {c : Char} (h : LocaleStrings.isBlank c = false) : isBlank c = false := by
  refine Bool.eq_false_iff.mpr fun hb => ?_
  have hgap : IsGap [c] := isGap_iff.mpr (List.forall_mem_singleton.mpr hb)
  rw [hgap.isBlank c List.mem_cons_self] at h
  cases h

/-- In the written form of separated tokens, every token can be told from what follows it. -/
theorem follow_of_separated {o : Nat} {rest : Text} {t : Token} {ts : List Token}
    (h : Spelled o rest ts) (hsep : Separated (t :: ts)) :
    t.kind.isMark = true ∨ Delimited rest := by
  by_cases hk : t.kind.isMark = true
  · exact .inl hk
  · have hnext := (List.isChain_cons.mp hsep).1
    exact .inr (delimited_of_spelled h fun u hu => (hnext u hu).resolve_left hk)

/-- **The written form of separated tokens is read as these tokens.** -/
theorem tokens_of_spelled {o : Nat} {text : Text} {ts : List Token} (h : Spelled o text ts)
    (hsep : Separated ts) : tokens ⟨o, text⟩ = (ts, .finished (o + Text.size text)) := by
  induction h with
  | @nil o blanks hb =>
    have hskip := skip_append (r := []) (isGap_iff.mp hb) (by simp) o
    rw [List.append_nil] at hskip
    rw [tokens]
    simp only
    split
    · rw [hskip]
    · next hr =>
      rw [hskip] at hr
      cases hr
  | @cons o blanks lexeme rest kind ts hb hl h ih =>
    have hfollow : kind.isMark = true ∨ Delimited rest := follow_of_separated h hsep
    obtain ⟨c, cs, rfl, hblank⟩ := lexeme_head hl
    obtain ⟨c', cs', hcs, ht⟩ := token_of_lexeme hl hfollow (o + Text.size blanks)
    obtain ⟨rfl, rfl⟩ := List.cons.inj hcs
    have hskip : (⟨o, blanks ++ (c :: cs ++ rest)⟩ : Cursor).skip isBlank
        = ⟨o + Text.size blanks, c :: (cs ++ rest)⟩ :=
      skip_append (isGap_iff.mp hb) (by simpa using isBlank_eq_false hblank) o
    have hread : (⟨o + Text.size blanks, c :: (cs ++ rest)⟩ : Cursor).Reads (c :: cs)
        ⟨o + Text.size blanks + Text.size (c :: cs), rest⟩ := ⟨rfl, rfl⟩
    rw [tokens_cons hskip ht, ih (List.isChain_cons.mp hsep).2, Token.between, hread.upTo]
    simp only [Text.size_append, Nat.add_assoc]

end Strict

end LocaleStrings.Json
