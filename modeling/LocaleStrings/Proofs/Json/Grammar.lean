import LocaleStrings.Json.Token
import LocaleStrings.Json.Value
import LocaleStrings.Number.Decimal
import LocaleStrings.Proofs.Source.Offsets
import LocaleStrings.Text.Blank
import Mathlib.Data.List.Chain

/-!
# The grammar of JSON texts

The grammar has two levels and shares nothing with the readers but the range of numbers.
Characters make up tokens, with blanks between them; tokens make up values.

* `IntegerText`, `FractionText`, `ExponentText`, `NumberText`: how numbers are written;
* `LetterEscape`, `IsHex4`: the two kinds of escapes;
* `StringText`: what stands between the quotes of a string, and the text it stands for;
* `Mark`, `Lexeme`: how a token of each kind is written;
* `Spelled`: a text is the written form of tokens, each at its place;
* `Spelled.append`: written forms may stand side by side;
* `Spelled.pairwise_lt`: tokens that are no marks stand apart;
* `IsValue`, `AreItems`, `AreMembers`: the tokens of a value, of the items of an array and of the
  members of an object;
* **`Denotes`**: a text is JSON and stands for a value.

`Separated` says that of two neighbouring tokens one is a bracket or mark. The tokens of a value are
separated, so their written form can be read without looking back (`IsValue.separated`).
-/

namespace LocaleStrings.Json

/-! ## Numbers -/

/-- The digits before the point: a zero alone, or digits that start with another one. -/
inductive IntegerText : Text → Prop
  | zero : IntegerText ['0']
  | digits {d : Char} {ds : Text} (hd : Ascii.isDigit d = true) (hz : d ≠ '0')
      (hds : ∀ c ∈ ds, Ascii.isDigit c = true) : IntegerText (d :: ds)

/-- A point and the digits behind it, or nothing. -/
inductive FractionText : Text → Prop
  | none : FractionText []
  | point {d : Char} {ds : Text} (hd : Ascii.isDigit d = true)
      (hds : ∀ c ∈ ds, Ascii.isDigit c = true) : FractionText ('.' :: d :: ds)

/-- The sign of an exponent, or nothing. -/
inductive SignText : Text → Prop
  | none : SignText []
  | plus : SignText ['+']
  | minus : SignText ['-']

/-- An exponent, or nothing. -/
inductive ExponentText : Text → Prop
  | none : ExponentText []
  | exponent {e d : Char} {sign ds : Text} (he : e = 'e' ∨ e = 'E') (hs : SignText sign)
      (hd : Ascii.isDigit d = true) (hds : ∀ c ∈ ds, Ascii.isDigit c = true) :
      ExponentText (e :: (sign ++ d :: ds))

/-- A number without sign that is not too large. What is too large is said by the arithmetic of the
strict check, which rounds more than once: at the very end of the range of doubles it takes some
numbers that are a little too large, and refuses some that are not. -/
inductive NumberText : Text → Prop
  | mk {i f e : Text} (hi : IntegerText i) (hf : FractionText f) (he : ExponentText e)
      (hr : (Decimal.ofLexeme (i ++ (f ++ e))).value?.isSome) : NumberText (i ++ (f ++ e))

/-! ## Strings -/

/-- `LetterEscape e c`: behind a backslash, the letter `e` stands for the character `c`. -/
inductive LetterEscape : Char → Char → Prop
  | quote : LetterEscape '"' '"'
  | backslash : LetterEscape '\\' '\\'
  | slash : LetterEscape '/' '/'
  | backspace : LetterEscape 'b' '\x08'
  | formFeed : LetterEscape 'f' '\x0c'
  | newline : LetterEscape 'n' '\n'
  | carriageReturn : LetterEscape 'r' '\r'
  | tab : LetterEscape 't' '\t'

/-- `IsHexDigit c k`: the value of the hexadecimal digit `c` is `k`, its place among the digits of
its case. -/
def IsHexDigit (c : Char) (k : Nat) : Prop :=
  "0123456789abcdef".toList[k]? = some c ∨ "0123456789ABCDEF".toList[k]? = some c

/-- `IsHex4 a b c d n`: the four digits are the number `n`. -/
def IsHex4 (a b c d : Char) (n : Nat) : Prop :=
  ∃ i j k l, IsHexDigit a i ∧ IsHexDigit b j ∧ IsHexDigit c k ∧ IsHexDigit d l ∧
    n = 4096 * i + 256 * j + 16 * k + l

/-- `StringText w v`: between quotes, `w` stands for the text `v`. A character may be written by its
number, in the units of UTF-16: one up to U+FFFF, and two for the characters beyond. -/
inductive StringText : Text → Text → Prop
  | nil : StringText [] []
  /-- A character that stands for itself. -/
  | plain {c : Char} {w v : Text} (hq : c ≠ '"') (hb : c ≠ '\\') (hc : ¬ c < ' ')
      (h : StringText w v) : StringText (c :: w) (c :: v)
  /-- An escape of one letter. -/
  | letter {e c : Char} {w v : Text} (he : LetterEscape e c) (h : StringText w v) :
      StringText ('\\' :: e :: w) (c :: v)
  /-- The number of a character. -/
  | number {a b c d x : Char} {w v : Text} (hn : IsHex4 a b c d x.toNat) (h : StringText w v) :
      StringText ('\\' :: 'u' :: a :: b :: c :: d :: w) (x :: v)
  /-- The numbers of the two halves of a character: ten bits each of what exceeds U+FFFF. -/
  | pair {a b c d a' b' c' d' x : Char} {w v : Text} (hx : 0x10000 ≤ x.toNat)
      (hhigh : IsHex4 a b c d (0xD800 + (x.toNat - 0x10000) / 0x400))
      (hlow : IsHex4 a' b' c' d' (0xDC00 + (x.toNat - 0x10000) % 0x400)) (h : StringText w v) :
      StringText ('\\' :: 'u' :: a :: b :: c :: d :: '\\' :: 'u' :: a' :: b' :: c' :: d' :: w)
        (x :: v)

/-! ## Tokens -/

/-- The brackets and marks that are tokens by themselves. -/
inductive Mark : Char → Kind → Prop
  | openObject : Mark '\x7b' .openObject
  | closeObject : Mark '\x7d' .closeObject
  | openArray : Mark '[' .openArray
  | closeArray : Mark ']' .closeArray
  | comma : Mark ',' .comma
  | colon : Mark ':' .colon

/-- `Lexeme t k`: a token of kind `k` may be written `t`. -/
inductive Lexeme : Text → Kind → Prop
  | mark {c : Char} {k : Kind} (h : Mark c k) : Lexeme [c] k
  | string {w v : Text} (h : StringText w v) : Lexeme ('"' :: (w ++ ['"'])) (.string v)
  | number {t : Text} (h : NumberText t) : Lexeme t .number
  | negative {t : Text} (h : NumberText t) : Lexeme ('-' :: t) .number
  | true : Lexeme ['t', 'r', 'u', 'e'] (.boolean true)
  | false : Lexeme ['f', 'a', 'l', 's', 'e'] (.boolean false)
  | null : Lexeme ['n', 'u', 'l', 'l'] .null

/-- A text of blanks, as they may stand between tokens. -/
def IsGap (t : Text) : Prop := ∀ c ∈ t, c ∈ [' ', '\t', '\n', '\r']

/-- `Spelled o text ts`: from byte `o` on, `text` is the written form of the tokens `ts`, with
blanks before, between and behind them. -/
inductive Spelled : Nat → Text → List Token → Prop
  | nil {o : Nat} {blanks : Text} (hb : IsGap blanks) : Spelled o blanks []
  | cons {o : Nat} {blanks lexeme rest : Text} {kind : Kind} {ts : List Token}
      (hb : IsGap blanks) (hl : Lexeme lexeme kind)
      (h : Spelled (o + Text.size blanks + Text.size lexeme) rest ts) :
      Spelled o (blanks ++ (lexeme ++ rest)) (⟨o + Text.size blanks, lexeme, kind⟩ :: ts)

/-! ## Values -/

/-- The greatest number of containers that may be open at a time. -/
def nestingLimit : Nat := 127

/-- A member of an object: its decoded key, and its value with the tokens of it. -/
structure Member where
  key : Text
  tokens : List Token
  value : Value

/-- The key and the value of a member. -/
def Member.pair (m : Member) : Text × Value := (m.key, m.value)

mutual

/-- `IsValue n ts v`: inside `n` containers, the tokens `ts` stand for the value `v`. -/
inductive IsValue : Nat → List Token → Value → Prop
  | null {n : Nat} {t : Token} (h : t.kind = .null) : IsValue n [t] .null
  | boolean {n : Nat} {t : Token} {b : Bool} (h : t.kind = .boolean b) :
      IsValue n [t] (.boolean b)
  | number {n : Nat} {t : Token} (h : t.kind = .number) : IsValue n [t] (.number t.lexeme)
  | string {n : Nat} {t : Token} {v : Text} (h : t.kind = .string v) :
      IsValue n [t] (.string ⟨t.lexeme, v, t.start⟩)
  | emptyArray {n : Nat} {o c : Token} (hn : n < nestingLimit) (ho : o.kind = .openArray)
      (hc : c.kind = .closeArray) : IsValue n [o, c] (.array [])
  | array {n : Nat} {o c : Token} {ts : List Token} {vs : List Value}
      (hn : n < nestingLimit) (ho : o.kind = .openArray) (h : AreItems (n + 1) ts vs)
      (hc : c.kind = .closeArray) : IsValue n (o :: (ts ++ [c])) (.array vs)
  | emptyObject {n : Nat} {o c : Token} (hn : n < nestingLimit) (ho : o.kind = .openObject)
      (hc : c.kind = .closeObject) : IsValue n [o, c] (.object [])
  | object {n : Nat} {o c : Token} {ts : List Token} {ms : List Member}
      (hn : n < nestingLimit) (ho : o.kind = .openObject) (h : AreMembers (n + 1) ts ms)
      (hc : c.kind = .closeObject) : IsValue n (o :: (ts ++ [c])) (.object (ms.map Member.pair))

/-- Items with commas between them. -/
inductive AreItems : Nat → List Token → List Value → Prop
  | last {n : Nat} {ts : List Token} {v : Value} (h : IsValue n ts v) : AreItems n ts [v]
  | more {n : Nat} {ts ts' : List Token} {c : Token} {v : Value} {vs : List Value}
      (h : IsValue n ts v) (hc : c.kind = .comma) (hs : AreItems n ts' vs) :
      AreItems n (ts ++ c :: ts') (v :: vs)

/-- Members with commas between them, each a key, a colon and a value. -/
inductive AreMembers : Nat → List Token → List Member → Prop
  | last {n : Nat} {k c : Token} {m : Member} (hk : k.kind = .string m.key)
      (hc : c.kind = .colon) (h : IsValue n m.tokens m.value) :
      AreMembers n (k :: c :: m.tokens) [m]
  | more {n : Nat} {k c s : Token} {m : Member} {ts : List Token} {ms : List Member}
      (hk : k.kind = .string m.key) (hc : c.kind = .colon) (h : IsValue n m.tokens m.value)
      (hs : s.kind = .comma) (hms : AreMembers n ts ms) :
      AreMembers n (k :: c :: (m.tokens ++ s :: ts)) (m :: ms)

end

/-- **A text is JSON and stands for `v`.** -/
def Denotes (text : Text) (v : Value) : Prop := ∃ ts, Spelled 0 text ts ∧ IsValue 0 ts v

/-! ## First characters -/

theorem mem_digits_of_isDigit {d : Char} (h : Ascii.isDigit d = true) :
    d ∈ "0123456789".toList := by
  simp only [Ascii.isDigit, Bool.and_eq_true, decide_eq_true_eq, Char.le_def,
    UInt32.le_iff_toNat_le] at h
  have hall : ∀ k ∈ List.range' 48 10, Char.ofNat k ∈ "0123456789".toList := by decide
  exact Text.forall_of_range hall h.1 (Nat.lt_succ_of_le h.2)

theorem NumberText.head {t : Text} (h : NumberText t) :
    ∃ d ds, t = d :: ds ∧ Ascii.isDigit d = true := by
  obtain @⟨i, f, e, hi, hf, he, -⟩ := h
  cases hi with
  | zero => exact ⟨'0', f ++ e, rfl, rfl⟩
  | @digits d ds hd hz hds => exact ⟨d, ds ++ (f ++ e), rfl, hd⟩

theorem IsGap.isBlank {t : Text} (h : IsGap t) : ∀ c ∈ t, isBlank c = true := by
  intro c hc
  have hall : ∀ c ∈ [' ', '\t', '\n', '\r'], LocaleStrings.isBlank c = true :=
    Text.forall_of_all (by decide)
  exact hall c (h c hc)

/-- A token starts with no blank, not even with one of the blanks beyond ASCII. -/
theorem lexeme_head {l : Text} {k : Kind} (h : Lexeme l k) :
    ∃ c cs, l = c :: cs ∧ isBlank c = false := by
  cases h with
  | @mark c k hm =>
    refine ⟨c, [], rfl, ?_⟩
    cases hm <;> rfl
  | number ht =>
    obtain ⟨d, ds, rfl, hd⟩ := NumberText.head ht
    have hall : ∀ c ∈ "0123456789".toList, isBlank c = false := Text.forall_of_all (by decide)
    exact ⟨d, ds, rfl, hall d (mem_digits_of_isDigit hd)⟩
  | string | negative | true | false | null => exact ⟨_, _, rfl, rfl⟩

theorem Lexeme.exists_stringText {l v : Text} (h : Lexeme l (.string v)) :
    ∃ w, l = '"' :: (w ++ ['"']) ∧ StringText w v := by
  cases h with
  | mark hm => cases hm
  | string hw => exact ⟨_, rfl, hw⟩

/-! ## Neighbouring tokens -/

/-- Whether a token is a bracket or mark of one character. -/
def Kind.isMark : Kind → Bool
  | .openObject | .closeObject | .openArray | .closeArray | .comma | .colon => true
  | .string _ | .number | .boolean _ | .null | .word => false

/-- Of two neighbouring tokens one is a bracket or mark. -/
def Separated (ts : List Token) : Prop :=
  ts.IsChain fun a b => a.kind.isMark = true ∨ b.kind.isMark = true

theorem separated_singleton (t : Token) : Separated [t] := List.isChain_singleton t

theorem Separated.cons_mark {ts : List Token} {c : Token} (hc : c.kind.isMark = true)
    (h : Separated ts) : Separated (c :: ts) :=
  List.isChain_cons.mpr ⟨fun _ _ => .inl hc, h⟩

theorem Separated.append_mark {ts us : List Token} {c : Token} (h : Separated ts)
    (hc : c.kind.isMark = true) (hs : Separated us) : Separated (ts ++ c :: us) :=
  List.isChain_append.mpr ⟨h, hs.cons_mark hc, fun x _ y hy => by
    obtain rfl : c = y := by simpa using hy
    exact .inr hc⟩

theorem Separated.enclose {ts : List Token} {o c : Token} (ho : o.kind.isMark = true)
    (h : Separated ts) (hc : c.kind.isMark = true) : Separated (o :: (ts ++ [c])) :=
  (h.append_mark hc List.isChain_nil).cons_mark ho

mutual

theorem IsValue.separated {n : Nat} {ts : List Token} {v : Value} :
    IsValue n ts v → Separated ts
  | .null _ | .boolean _ | .number _ | .string _ => separated_singleton _
  | .emptyArray _ ho _ => (separated_singleton _).cons_mark (by rw [ho]; rfl)
  | .array _ ho h hc => h.separated.enclose (by rw [ho]; rfl) (by rw [hc]; rfl)
  | .emptyObject _ ho _ => (separated_singleton _).cons_mark (by rw [ho]; rfl)
  | .object _ ho h hc => h.separated.enclose (by rw [ho]; rfl) (by rw [hc]; rfl)

theorem AreItems.separated {n : Nat} {ts : List Token} {vs : List Value} :
    AreItems n ts vs → Separated ts
  | .last h => h.separated
  | .more h hc hs => h.separated.append_mark (by rw [hc]; rfl) hs.separated

theorem AreMembers.separated {n : Nat} {ts : List Token} {ms : List Member} :
    AreMembers n ts ms → Separated ts
  | .last (k := k) (c := c) _ hc h =>
    (separated_singleton k).append_mark (c := c) (by rw [hc]; rfl) h.separated
  | .more (k := k) (c := c) _ hc h hs hms =>
    (separated_singleton k).append_mark (c := c) (by rw [hc]; rfl)
      (h.separated.append_mark (by rw [hs]; rfl) hms.separated)

end

/-! ## Written forms put together -/

theorem isGap_nil : IsGap [] := List.forall_mem_nil _

theorem IsGap.append {s t : Text} (h : IsGap s) (h' : IsGap t) : IsGap (s ++ t) :=
  List.forall_mem_append.mpr ⟨h, h'⟩

theorem spelled_nil (o : Nat) : Spelled o [] [] := .nil isGap_nil

theorem spelled_of_lexeme {l : Text} {k : Kind} (h : Lexeme l k) (o : Nat) :
    Spelled o l [⟨o, l, k⟩] := by
  simpa using Spelled.cons isGap_nil h (spelled_nil (o + Text.size [] + Text.size l))

/-- The written forms of tokens may stand side by side. -/
theorem Spelled.append {o : Nat} {s t : Text} {ts us : List Token} (h : Spelled o s ts)
    (h' : Spelled (o + Text.size s) t us) : Spelled o (s ++ t) (ts ++ us) := by
  induction h with
  | @nil o blanks hb =>
    -- the blanks at the end of the one are blanks at the beginning of the other
    cases h' with
    | nil hb' => exact .nil (hb.append hb')
    | @cons _ blanks' lexeme rest kind us hb' hl hrest =>
      have hsize : o + Text.size (blanks ++ blanks') = o + Text.size blanks + Text.size blanks' := by
        rw [Text.size_append, Nat.add_assoc]
      rw [← hsize] at hrest
      rw [List.nil_append, ← List.append_assoc, ← hsize]
      exact .cons (hb.append hb') hl hrest
  | @cons o blanks lexeme rest kind ts hb hl h ih =>
    rw [List.append_assoc, List.append_assoc]
    refine .cons hb hl (ih ?_)
    rwa [Text.size_append, Text.size_append, ← Nat.add_assoc, ← Nat.add_assoc] at h'

/-! ## Places of tokens -/

theorem Spelled.partAt {o : Nat} {text : Text} {ts : List Token} (h : Spelled o text ts) :
    ∀ t ∈ ts, ∃ before after, text = before ++ t.lexeme ++ after ∧
      t.start = o + Text.size before := by
  induction h with
  | nil => intro t ht; cases ht
  | @cons o blanks lexeme rest kind ts hb hl h ih =>
    intro t ht
    rcases List.mem_cons.mp ht with rfl | ht
    · exact ⟨blanks, rest, by simp, rfl⟩
    · obtain ⟨before, after, rfl, hstart⟩ := ih t ht
      refine ⟨blanks ++ lexeme ++ before, after, by simp, ?_⟩
      rw [hstart]
      simp only [Text.size_append]
      omega

theorem Spelled.lexeme {o : Nat} {text : Text} {ts : List Token} (h : Spelled o text ts) :
    ∀ t ∈ ts, Lexeme t.lexeme t.kind := by
  induction h with
  | nil => intro t ht; cases ht
  | cons hb hl h ih =>
    intro t ht
    rcases List.mem_cons.mp ht with rfl | ht
    · exact hl
    · exact ih t ht

/-- **Every token of a text stands at its offset.** -/
theorem Spelled.token_partAt {text : Text} {ts : List Token} (h : Spelled 0 text ts) {t : Token}
    (ht : t ∈ ts) : Text.PartAt text t.start t.lexeme := by
  obtain ⟨before, after, htext, hstart⟩ := h.partAt t ht
  exact ⟨before, after, htext, by rw [hstart, Nat.zero_add]⟩

theorem Spelled.le_start {o : Nat} {text : Text} {ts : List Token} (h : Spelled o text ts) :
    ∀ t ∈ ts, o ≤ t.start := by
  intro t ht
  obtain ⟨before, -, -, hstart⟩ := h.partAt t ht
  rw [hstart]
  exact Nat.le_add_right _ _

/-- **The tokens of a text stand one behind the other.** -/
theorem Spelled.pairwise {o : Nat} {text : Text} {ts : List Token} (h : Spelled o text ts) :
    ts.Pairwise fun a b => a.stop ≤ b.start := by
  induction h with
  | nil => exact List.Pairwise.nil
  | cons hb hl h ih => exact List.Pairwise.cons (fun t ht => h.le_start t ht) ih

theorem Lexeme.size_pos {l : Text} {k : Kind} (h : Lexeme l k) : 0 < Text.size l := by
  obtain ⟨c, cs, rfl, -⟩ := lexeme_head h
  have := c.utf8Size_pos
  simp only [Text.size_cons]
  omega

/-- **Tokens that are no marks stand apart.** Where a mark stands between any two of them, there is
at least one byte between them. -/
theorem Spelled.pairwise_lt {o : Nat} {text : Text} {ts : List Token} (h : Spelled o text ts)
    (hsep : Separated ts) :
    ts.Pairwise fun a b => a.kind.isMark = true ∨ b.kind.isMark = true ∨ a.stop < b.start := by
  induction h with
  | nil => exact List.Pairwise.nil
  | @cons o blanks lexeme rest kind ts hb hl h ih =>
    obtain ⟨hnext, hrest⟩ := List.isChain_cons.mp hsep
    refine List.Pairwise.cons (fun u hu => ?_) (ih hrest)
    cases ts with
    | nil => cases hu
    | cons x ts =>
      have hneighbour := hnext x rfl
      rcases List.mem_cons.mp hu with rfl | hu
      · exact hneighbour.imp_right .inl
      · -- the neighbour stands between the two, and takes a byte at least
        have hx := h.le_start x List.mem_cons_self
        have hxu := (List.pairwise_cons.mp h.pairwise).1 u hu
        have hpos := (h.lexeme x List.mem_cons_self).size_pos
        simp only [Token.stop] at hxu ⊢
        exact .inr (.inr (by omega))

/-- A string is written with at least as many characters as it has, and two quotes. -/
theorem StringText.length_le {w v : Text} (h : StringText w v) : v.length ≤ w.length := by
  induction h with
  | nil => exact Nat.le_refl _
  | plain _ _ _ _ ih => simpa using ih
  | letter _ _ ih | number _ _ ih | pair _ _ _ _ ih =>
    simp only [List.length_cons]
    omega

end LocaleStrings.Json
