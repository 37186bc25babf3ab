import LocaleStrings.Json.Lenient.Tokens
import LocaleStrings.Proofs.Json.StrictTokens

/-!
# The lenient reader on strict texts

Where a strict reader succeeds, the lenient one reads the same: the same cursor behind a number or
word, the same decoded string, the same tokens.

* `Lenient.unsignedNumber_of_strict`, `Lenient.string_of_strict`: numbers and strings, reader by
  reader;
* `Lenient.token_of_lexeme`: a token, if a delimiter or nothing follows it;
* **`Lenient.tokens_of_spelled`**: the tokens of a text, if they are separated.

The condition on what follows is needed: `0x1` starts with a strict number, and `true1` with a
strict word, that the lenient reader prolongs.
-/

namespace LocaleStrings.Json.Lenient

open Cursor
open Strict (Delimited delimiters)

/-! ## Numbers -/

theorem digits_of_head {p : Char → Bool} {problem : Problem} {cur : Cursor} {d : Char} {ds : Text}
    (hr : cur.rest = d :: ds) (hd : p d = true) : digits p problem cur = .ok (cur.skip p) := by
  rw [digits, if_pos]
  rw [hr]
  exact hd

theorem fractionPart_of_strict {cur next : Cursor} (h : Strict.fractionPart cur = .ok next) :
    fractionPart cur = .ok next := by
  rw [Strict.fractionPart] at h
  split at h
  · next cs hc =>
    simp only at h
    split at h
    · cases h
    · next d ds =>
      split_ifs at h with hd
      cases h
      rw [fractionPart, hc]
      exact digits_of_head rfl hd
  · next hpoint =>
    cases h
    rw [fractionPart]
    split
    · next cs hc => exact absurd hc (hpoint cs)
    · rfl

theorem exponentPart_of_strict {cur next : Cursor} (h : Strict.exponentPart cur = .ok next) :
    exponentPart cur = .ok next := by
  rw [Strict.exponentPart] at h
  split at h
  · next hc =>
    cases h
    rw [exponentPart, hc]
  · next c cs hc =>
    rw [exponentPart, hc]
    split_ifs at h with he
    · simp only [if_pos he]
      rw [Strict.exponentDigits] at h
      split at h
      · cases h
      · next d ds hd =>
        split_ifs at h with hdigit
        cases h
        split_ifs with hsign
        · exact digits_of_head hd hdigit
        · -- without a sign the digits start right behind the letter
          have hno : (cur.push c cs).skipSign = cur.push c cs := by
            rw [skipSign]
            split
            · next hs => exact absurd (by rw [hs]; rfl) hsign
            · next hs => exact absurd (by rw [hs]; rfl) hsign
            · rfl
          rw [hno] at hd ⊢
          exact digits_of_head hd hdigit
    · cases h
      simp only [if_neg he]

/-- A number that starts with a zero is not hexadecimal, if a delimiter follows it. -/
theorem decimal_of_delimited {cur next : Cursor} {x : Char} {xs : Text} (hr : cur.rest = x :: xs)
    (h : decimalPart cur = .ok next) (hnext : Delimited next.rest) : ¬ (x = 'x' ∨ x = 'X') := by
  intro hx
  have hfraction : fractionPart cur = .ok cur := by
    rw [fractionPart]
    split
    · next hc =>
      rw [hr] at hc
      obtain ⟨rfl, -⟩ := List.cons.inj hc
      exact absurd hx (by decide)
    · rfl
  have hexponent : exponentPart cur = .ok cur := by
    rw [exponentPart, hr]
    simp only
    rw [if_neg]
    rcases hx with rfl | rfl <;> decide
  have hsame : cur = next := by
    rw [decimalPart, hfraction] at h
    simp only [bind, Except.bind, hexponent, Except.ok.injEq] at h
    exact h
  have hmem := hnext x (by rw [← hsame, hr]; rfl)
  rcases hx with rfl | rfl <;> exact absurd hmem (by decide)

theorem unsignedNumber_of_strict {cur next : Cursor} (h : Strict.number cur = .ok next)
    (hnext : Delimited next.rest) : unsignedNumber cur = .ok next := by
  simp only [Strict.number, bind, Except.bind] at h
  split at h
  · cases h
  · next a ha =>
    split at h
    · cases h
    · next b hb =>
      split at h
      · cases h
      · next c hc =>
        obtain rfl : c = next := by
          split at h
          · cases h
          · cases h; rfl
        have hdecimal : decimalPart a = .ok c := by
          rw [decimalPart, fractionPart_of_strict hb]
          exact exponentPart_of_strict hc
        rw [Strict.integerPart] at ha
        split at ha
        · cases ha
        · next d ds hd =>
          simp only at ha
          rw [unsignedNumber, hd]
          simp only
          split_ifs at ha ⊢ with hzero hdigit hdigit
          · cases ha
            split
            · next x xs =>
              rw [if_neg (decimal_of_delimited rfl hdecimal hnext)]
              exact hdecimal
            · -- nothing follows the zero
              rw [decimalPart, fractionPart] at hdecimal
              exact hdecimal
          · cases ha
            exact hdecimal

theorem number_of_strict {cur next : Cursor} {d : Char} {ds : Text} (hr : cur.rest = d :: ds)
    (hd : Ascii.isDigit d = true) (h : Strict.number cur = .ok next)
    (hnext : Delimited next.rest) : number cur = .ok next := by
  obtain ⟨o, rest⟩ := cur
  obtain rfl : rest = d :: ds := hr
  have hsign : (⟨o, d :: ds⟩ : Cursor).skipSign = ⟨o, d :: ds⟩ :=
    Strict.skipSign_of_text .none hd ds o
  rw [number, hsign]
  exact unsignedNumber_of_strict h hnext

/-! ## Strings -/

theorem hex4_of_strict {slash : Nat} {cur next : Cursor} {n : Nat}
    (h : Strict.hex4 cur = .ok (n, next)) : hex4 slash cur = .ok (n, next) := by
  rw [Strict.hex4] at h
  split at h
  · next a b c d cs hc =>
    split at h
    · next m hm =>
      cases h
      simp only [Strict.hexValue4?, bind, Option.bind_eq_some_iff, pure, Option.some.injEq] at hm
      obtain ⟨w, hw, x, hx, y, hy, z, hz, rfl⟩ := hm
      simp only [hex4, hc, hw, hx, hy, hz]
    · cases h
  · cases h

theorem rest_of_continuation {c : Char} {cur next : Cursor}
    (h : Strict.continuation c cur = .ok next) :
    ∃ cs, cur.rest = c :: cs ∧ next = cur.push c cs := by
  rw [Strict.continuation] at h
  split at h
  · cases h
  · next d ds hd =>
    split_ifs at h with he
    cases h
    subst he
    exact ⟨ds, hd, rfl⟩

theorem unicodeEscape_of_strict {slash : Nat} {cur next : Cursor} {e : Char}
    (h : Strict.unicodeEscape cur = .ok (e, next)) :
    unicodeEscape slash cur = .ok (e, next) := by
  simp only [Strict.unicodeEscape, bind, Except.bind, pure, Except.pure] at h
  simp only [unicodeEscape, bind, Except.bind, pure, Except.pure]
  split at h
  · cases h
  · next p hp =>
    obtain ⟨n, behind⟩ := p
    rw [hex4_of_strict hp]
    simp only at h ⊢
    split_ifs at h ⊢ with hlow hhigh
    · split at h
      · cases h
      · next q hq =>
        split at h
        · cases h
        · next r hr =>
          split at h
          · cases h
          · next p' hp' =>
            obtain ⟨m, last⟩ := p'
            obtain ⟨cs, hcs, rfl⟩ := rest_of_continuation hq
            obtain ⟨ds, rfl, rfl⟩ := rest_of_continuation hr
            rw [hcs]
            simp only [hex4_of_strict hp'] at h ⊢
            split_ifs at h ⊢ with hlow'
            simpa using h
    · cases h
      rfl

theorem escape_of_strict {opening slash : Nat} {cur next : Cursor} {e : Char}
    (h : Strict.escape cur = .ok (e, next)) : escape '"' opening slash cur = .ok (e, next) := by
  rw [Strict.escape] at h
  split at h
  · cases h
  · next c cs hc =>
    rw [escape, hc]
    simp only
    split_ifs at h with hu
    · rw [if_pos hu]
      exact unicodeEscape_of_strict h
    · have hquote : c ≠ '\'' := by
        rintro rfl
        cases h
      have hdouble : ¬ (c = '"' ∧ '"' ≠ '"') := fun h => h.2 rfl
      rw [if_neg hu, if_neg hdouble, if_neg hquote]
      cases he : escaped? c with
      | none =>
        simp only [he] at h
        cases h
      | some e' =>
        simp only [he] at h
        cases h
        rfl

/-- One step of reading a string. -/
theorem string_eq {cur : Cursor} {c : Char} {cs : Text} (hr : cur.rest = c :: cs) (quote : Char)
    (opening : Nat) :
    string quote opening cur =
      if c = quote then .ok ([], cur.push c cs)
      else if c = '\\' then
        (escape quote opening cur.offset (cur.push c cs)).bind fun (e, next) =>
          (string quote opening next).map fun (v, last) => (e :: v, last)
      else (string quote opening (cur.push c cs)).map fun (v, last) => (c :: v, last) := by
  obtain ⟨o, rest⟩ := cur
  obtain rfl : rest = c :: cs := hr
  rw [string]
  simp only
  split_ifs
  · rfl
  · split
    · next he => rw [he]; rfl
    · next e next he =>
      rw [he]
      simp only [Except.bind]
      cases string quote opening next <;> rfl
  · cases string quote opening (push ⟨o, c :: cs⟩ c cs) <;> rfl

theorem string_of_strict {opening : Nat} {cur next : Cursor} {v : Text}
    (h : Strict.string cur = .ok (v, next)) : string '"' opening cur = .ok (v, next) := by
  fun_induction Strict.string cur generalizing v next with
  | case1 => cases h
  | case2 cur cs hr =>
    cases h
    rw [string_eq hr, if_pos rfl]
  | case3 => cases h
  | case4 => cases h
  | case5 => cases h
  | case6 =>
    rename_i hs hr _ hq _ he ih
    cases h
    rw [string_eq hr, if_neg hq, if_pos rfl, escape_of_strict he]
    simp only [Except.bind, ih hs]
    rfl
  | case7 => cases h
  | case8 =>
    rename_i hr _ hq _ hb _ _ hs ih
    cases h
    rw [string_eq hr, if_neg hq, if_neg hb, ih hs]
    rfl

/-! ## Words -/

/-- No delimiter prolongs a word. -/
theorem not_isAlphanumeric_of_mem : ∀ c ∈ delimiters, isAlphanumeric c = false :=
  Text.forall_of_all (by decide +kernel)

theorem keyword?_of_prefix {w : Text} {k : Kind} (hk : (w, k) ∈ keywords) {r : Text}
    (hr : Delimited r) (o : Nat) :
    keyword? ⟨o, w ++ r⟩ = some (k, ⟨o + Text.size w, r⟩) := by
  have hstop : r[0]?.any isAlphanumeric = false := by
    cases r with
    | nil => rfl
    | cons c cs => exact not_isAlphanumeric_of_mem c (hr c rfl)
  simp only [keywords, List.mem_cons, Prod.mk.injEq, List.not_mem_nil, or_false] at hk
  rcases hk with ⟨rfl, rfl⟩ | ⟨rfl, rfl⟩ | ⟨rfl, rfl⟩
  all_goals
    simp [keyword?, keywords, startsWithWord, hstop]

theorem token_of_keyword {w : Text} {k : Kind} (hk : (w, k) ∈ keywords) {r : Text}
    (hr : Delimited r) (o : Nat) {c : Char} {cs : Text} (hw : w = c :: cs) :
    token ⟨o, c :: (cs ++ r)⟩ c (cs ++ r) = .ok (some k, ⟨o + Text.size w, r⟩) := by
  have hread := keyword?_of_prefix hk hr o
  subst hw
  simp only [keywords, List.mem_cons, Prod.mk.injEq, List.not_mem_nil, or_false] at hk
  rw [List.cons_append] at hread
  simp only [token, hread]
  rcases hk with ⟨h, -⟩ | ⟨h, -⟩ | ⟨h, -⟩ <;>
  · obtain ⟨rfl, -⟩ := List.cons.inj h
    rfl

/-! ## Tokens -/

/-- **A token is read whole**, if a delimiter or nothing follows it, or if it is a mark itself. -/
theorem token_of_lexeme {l r : Text} {k : Kind} (h : Lexeme l k)
    (hr : k.isMark = true ∨ Delimited r) (o : Nat) :
    ∃ c cs, l = c :: cs ∧
      token ⟨o, c :: (cs ++ r)⟩ c (cs ++ r) = .ok (some k, ⟨o + Text.size l, r⟩) := by
  cases h with
  | @mark c k hm =>
    refine ⟨c, [], rfl, ?_⟩
    simp only [token, Kind.ofMark?_eq_some_iff.mpr hm, push]
    rfl
  | @string w v hw =>
    refine ⟨'"', _, rfl, ?_⟩
    have hs := Strict.string_of_text hw r (o + '"'.utf8Size)
    have hm : Kind.ofMark? '"' = none := rfl
    simp only [token, hm, true_or, if_true, push, List.append_assoc, List.singleton_append,
      string_of_strict hs, Text.size_cons, Nat.add_assoc]
  | @number t ht =>
    have hdel : Delimited r := hr.resolve_left (by decide)
    obtain ⟨d, ds, rfl, hd⟩ := NumberText.head ht
    refine ⟨d, ds, rfl, ?_⟩
    have hfirst : ∀ c ∈ "0123456789".toList,
        Kind.ofMark? c = none ∧ ¬ (c = '"' ∨ c = '\'') ∧ c ≠ '/' := Text.forall_of_all (by decide)
    obtain ⟨hm, hq, hslash⟩ := hfirst d (mem_digits_of_isDigit hd)
    have hn := number_of_strict rfl hd (Strict.number_of_text ht hdel o) hdel
    rw [List.cons_append] at hn
    simp only [token, hm, if_neg hq, if_neg hslash, hd, or_true, if_true, hn]
  | @negative t ht =>
    have hdel : Delimited r := hr.resolve_left (by decide)
    refine ⟨'-', t, rfl, ?_⟩
    have hn := unsignedNumber_of_strict (Strict.number_of_text ht hdel (o + '-'.utf8Size)) hdel
    have hm : Kind.ofMark? '-' = none := rfl
    have hsign : number ⟨o, '-' :: (t ++ r)⟩ = unsignedNumber ⟨o + '-'.utf8Size, t ++ r⟩ := rfl
    simp only [token, hm, if_neg (show ¬ ('-' = '"' ∨ '-' = '\'') by decide),
      if_neg (show ¬ '-' = '/' by decide), true_or, if_true, hsign, hn, Text.size_cons,
      Nat.add_assoc]
  | true => exact ⟨'t', _, rfl, token_of_keyword (by decide) (hr.resolve_left (by decide)) o rfl⟩
  | false => exact ⟨'f', _, rfl, token_of_keyword (by decide) (hr.resolve_left (by decide)) o rfl⟩
  | null => exact ⟨'n', _, rfl, token_of_keyword (by decide) (hr.resolve_left (by decide)) o rfl⟩

/-- One step of cutting a text into tokens. -/
theorem tokens_cons {cur next : Cursor} {o : Nat} {c : Char} {cs : Text} {k : Kind}
    (hskip : cur.skip isBlank = ⟨o, c :: cs⟩)
    (ht : token ⟨o, c :: cs⟩ c cs = .ok (some k, next)) :
    tokens cur = (.between ⟨o, c :: cs⟩ next k :: (tokens next).1, (tokens next).2) := by
  rw [tokens]
  simp only
  split
  · next hr =>
    rw [hskip] at hr
    cases hr
  · next c' cs' hr =>
    rw [hskip] at hr
    obtain ⟨rfl, rfl⟩ := List.cons.inj hr
    split
    · next ht' =>
      rw [hskip, ht] at ht'
      cases ht'
    · next ht' =>
      rw [hskip, ht] at ht'
      cases ht'
    · next k' next' ht' =>
      rw [hskip, ht] at ht'
      cases ht'
      rw [hskip]

/-- **The written form of separated tokens is read as these tokens.** -/
theorem tokens_of_spelled {o : Nat} {text : Text} {ts : List Token} (h : Spelled o text ts)
    (hsep : Separated ts) : tokens ⟨o, text⟩ = (ts, .finished (o + Text.size text)) := by
  induction h with
  | @nil o blanks hb =>
    have hskip := skip_append (r := []) hb.isBlank (by simp) o
    rw [List.append_nil] at hskip
    rw [tokens]
    simp only
    split
    · rw [hskip]
    · next hr =>
      rw [hskip] at hr
      cases hr
  | @cons o blanks lexeme rest kind ts hb hl h ih =>
    have hfollow : kind.isMark = true ∨ Delimited rest := Strict.follow_of_separated h hsep
    obtain ⟨c, cs, rfl, hblank⟩ := lexeme_head hl
    obtain ⟨c', cs', hcs, ht⟩ := token_of_lexeme hl hfollow (o + Text.size blanks)
    obtain ⟨rfl, rfl⟩ := List.cons.inj hcs
    have hskip : (⟨o, blanks ++ (c :: cs ++ rest)⟩ : Cursor).skip isBlank
        = ⟨o + Text.size blanks, c :: (cs ++ rest)⟩ :=
      skip_append hb.isBlank (by simpa using hblank) o
    have hread : (⟨o + Text.size blanks, c :: (cs ++ rest)⟩ : Cursor).Reads (c :: cs)
        ⟨o + Text.size blanks + Text.size (c :: cs), rest⟩ := ⟨rfl, rfl⟩
    rw [tokens_cons hskip ht, ih (List.isChain_cons.mp hsep).2, Token.between, hread.upTo]
    simp only [Text.size_append, Nat.add_assoc]

end LocaleStrings.Json.Lenient
