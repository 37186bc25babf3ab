import LocaleStrings.Json.Lenient.Fault
import LocaleStrings.Json.Token
import LocaleStrings.Text.Alphanumeric
import LocaleStrings.Text.Ascii
import LocaleStrings.Text.Blank

/-!
# Lenient comments, numbers, strings and words

Beside what strict texts allow there are comments, signs and hexadecimal digits of numbers, texts
in single quotes and bare words. Each reader gives the cursor behind what it read, or a fault.

* `lineComment`, `blockComment`: the rest of a comment;
* `number`: a number with its sign;
* `string`: the characters of a text up to and with the closing quote, decoded;
* `bareWord`: a word; `keyword?` recognises the ones with a meaning.
-/

namespace LocaleStrings.Json.Lenient

open Cursor

/-! ## Comments -/

/-- The cursor at the end of the line. -/
def lineComment (cur : Cursor) : Cursor := cur.skip (· != '\n')

/-- The cursor behind the end of a block comment, if it has one. -/
def blockComment (cur : Cursor) : Option Cursor :=
  match _hr : cur.rest with
  | [] => none
  | [_] => none
  | c :: d :: cs =>
    if c = '*' ∧ d = '/' then some ((cur.push c (d :: cs)).push d cs)
    else blockComment (cur.push c (d :: cs))
termination_by cur.rest.length
decreasing_by
  exact (passes_push _hr).length_lt

/-! ## Numbers -/

/-- The cursor behind the digits, of which there must be one. -/
def digits (isDigit : Char → Bool) (problem : Problem) (cur : Cursor) : Except Fault Cursor :=
  if cur.rest.head?.any isDigit then .ok (cur.skip isDigit) else .error ⟨problem, cur.offset⟩

/-- Whether a character is a hexadecimal digit. -/
def isHexDigit (c : Char) : Bool := (Ascii.hexValue? c).isSome

/-- Reads the digits behind the point, if there is a point. -/
def fractionPart (cur : Cursor) : Except Fault Cursor :=
  match cur.rest with
  | '.' :: cs => digits Ascii.isDigit .expectedDigit (cur.push '.' cs)
  | _ => .ok cur

/-- Reads an exponent, if there is one. -/
def exponentPart (cur : Cursor) : Except Fault Cursor :=
  match cur.rest with
  | [] => .ok cur
  | c :: cs =>
    if c = 'e' ∨ c = 'E' then
      let next := cur.push c cs
      if next.rest.head?.any fun s => s == '+' || s == '-' then
        digits Ascii.isDigit .expectedDigit next.skipSign
      else digits Ascii.isDigit .expectedExponent next
    else .ok cur

/-- Reads point and exponent. -/
def decimalPart (cur : Cursor) : Except Fault Cursor := do
  let next ← fractionPart cur
  exponentPart next

/-- Reads a number behind its sign: a zero or digits that start with another one, point and
exponent; or hexadecimal digits. -/
def unsignedNumber (cur : Cursor) : Except Fault Cursor :=
  match cur.rest with
  | [] => .error ⟨.expectedDigitAfterSign, cur.offset⟩
  | c :: cs =>
    let next := cur.push c cs
    if c = '0' then
      match cs with
      | x :: xs =>
        if x = 'x' ∨ x = 'X' then digits isHexDigit .expectedDigit (next.push x xs)
        else decimalPart next
      | [] => .ok next
    else if Ascii.isDigit c then decimalPart (next.skip Ascii.isDigit)
    else .error ⟨.expectedDigitAfterSign, cur.offset⟩

/-- Reads a number. -/
def number (cur : Cursor) : Except Fault Cursor := unsignedNumber cur.skipSign

/-! ## Strings -/

/-- Reads four hexadecimal digits, for the escape whose backslash is at `slash`. -/
def hex4 (slash : Nat) (cur : Cursor) : Except Fault (Nat × Cursor) :=
  match cur.rest with
  | a :: b :: c :: d :: cs =>
    match Ascii.hexValue? a, Ascii.hexValue? b, Ascii.hexValue? c, Ascii.hexValue? d with
    | some w, some x, some y, some z =>
      .ok (((w * 16 + x) * 16 + y) * 16 + z, (((cur.push a (b :: c :: d :: cs)).push b
        (c :: d :: cs)).push c (d :: cs)).push d cs)
    | _, _, _, _ => .error ⟨.expectedHexDigits, slash⟩
  | _ => .error ⟨.expectedHexDigits, slash⟩

/-- Reads the digits of a numeric escape, and the escape of the second half if they are the first
half of a surrogate pair. -/
def unicodeEscape (slash : Nat) (cur : Cursor) : Except Fault (Char × Cursor) := do
  let (n, next) ← hex4 slash cur
  let written := cur.rest.take 4
  if isLowSurrogate n then throw ⟨.invalidSurrogate written "unpaired low surrogate", slash⟩
  else if isHighSurrogate n then
    match next.rest with
    | '\\' :: 'u' :: cs =>
      let (m, last) ← hex4 slash ((next.push '\\' ('u' :: cs)).push 'u' cs)
      if isLowSurrogate m then return (ofSurrogates n m, last)
      else throw ⟨.invalidSurrogate written "high surrogate not followed by low surrogate", slash⟩
    | _ => throw ⟨.invalidSurrogate written "unpaired high surrogate", slash⟩
  else return (Char.ofNat n, next)

/-- Reads an escape behind its backslash, in a text with the given quotes whose opening one is at
`opening`. A text that ends with a backslash lacks its closing quote. -/
def escape (quote : Char) (opening slash : Nat) (cur : Cursor) : Except Fault (Char × Cursor) :=
  match cur.rest with
  | [] => .error ⟨.unterminatedString, opening⟩
  | c :: cs =>
    if c = 'u' then unicodeEscape slash (cur.push c cs)
    else if c = '"' ∧ quote ≠ '"' then .error ⟨.doubleQuoteEscape, slash⟩
    else if c = '\'' then
      if quote = '\'' then .ok (c, cur.push c cs) else .error ⟨.singleQuoteEscape, slash⟩
    else match escaped? c with
      | some e => .ok (e, cur.push c cs)
      | none => .error ⟨.invalidEscape, slash⟩

/-! ## Words -/

/-- The words with a meaning. -/
def keywords : List (Text × Kind) :=
  [("true".toList, .boolean true), ("false".toList, .boolean false), ("null".toList, .null)]

/-- Whether `text` begins with the word `w`, and no letter or number follows it. -/
def startsWithWord (w text : Text) : Bool :=
  w.isPrefixOf text && !(text.drop w.length).head?.any isAlphanumeric

/-- The word with a meaning at a cursor, and the cursor behind it. -/
def keyword? (cur : Cursor) : Option (Kind × Cursor) :=
  (keywords.find? fun k => startsWithWord k.1 cur.rest).map fun k =>
    (k.2, ⟨cur.offset + Text.size (cur.rest.take k.1.length), cur.rest.drop k.1.length⟩)

/-- Whether a bare word goes on with a character. -/
def inWord (c : Char) : Bool := !(isBlank c || c == ':')

/-- Whether a character may stand in a bare word. -/
def isWordChar (c : Char) : Bool := isAlphanumeric c || c == '-' || c == '_'

/-- Reads a bare word. -/
def bareWord (cur : Cursor) : Except Fault Cursor :=
  if (cur.rest.takeWhile inWord).all isWordChar then .ok (cur.skip inWord)
  else .error ⟨.unexpectedToken, cur.offset⟩

/-! ## Readers go forward -/

theorem blockComment_passes {cur next : Cursor} (h : blockComment cur = some next) :
    cur.Passes next := by
  fun_induction blockComment cur with
  | case1 => cases h
  | case2 => cases h
  | case3 cur c d cs hr hcd =>
    cases h
    exact (passes_push hr).trans (passes_push rfl)
  | case4 cur c d cs hr hcd ih => exact (passes_push hr).trans (ih h)

theorem digits_reaches {isDigit : Char → Bool} {problem : Problem} {cur next : Cursor}
    (h : digits isDigit problem cur = .ok next) : cur.Reaches next := by
  rw [digits] at h
  split at h
  · cases h; exact reaches_skip _ _
  · cases h

theorem fractionPart_reaches {cur next : Cursor} (h : fractionPart cur = .ok next) :
    cur.Reaches next := by
  rw [fractionPart] at h
  split at h
  · next hc => exact (passes_push hc).reaches.trans (digits_reaches h)
  · cases h; exact Reaches.refl _

theorem exponentPart_reaches {cur next : Cursor} (h : exponentPart cur = .ok next) :
    cur.Reaches next := by
  rw [exponentPart] at h
  split at h
  · cases h; exact Reaches.refl _
  · next c cs hc =>
    have first := (passes_push hc).reaches
    split at h
    · dsimp only at h
      split at h
      · exact (first.trans (reaches_skipSign _)).trans (digits_reaches h)
      · exact first.trans (digits_reaches h)
    · cases h; exact Reaches.refl _

theorem decimalPart_reaches {cur next : Cursor} (h : decimalPart cur = .ok next) :
    cur.Reaches next := by
  simp only [decimalPart, bind, Except.bind] at h
  split at h
  · cases h
  · next a ha => exact (fractionPart_reaches ha).trans (exponentPart_reaches h)

theorem unsignedNumber_passes {cur next : Cursor} (h : unsignedNumber cur = .ok next) :
    cur.Passes next := by
  rw [unsignedNumber] at h
  split at h
  · cases h
  · next c cs hc =>
    have first := passes_push hc
    dsimp only at h
    split at h
    · split at h
      · next x xs =>
        split at h
        · exact (first.trans (passes_push rfl)).trans_reaches (digits_reaches h)
        · exact first.trans_reaches (decimalPart_reaches h)
      · cases h; exact first
    · split at h
      · exact first.trans_reaches ((reaches_skip _ _).trans (decimalPart_reaches h))
      · cases h

theorem number_passes {cur next : Cursor} (h : number cur = .ok next) : cur.Passes next :=
  (reaches_skipSign cur).trans_passes (unsignedNumber_passes h)

theorem hex4_passes {slash : Nat} {cur next : Cursor} {n : Nat}
    (h : hex4 slash cur = .ok (n, next)) : cur.Passes next := by
  rw [hex4] at h
  split at h
  · next a b c d cs hc =>
    split at h
    · cases h
      exact (((passes_push hc).trans (passes_push rfl)).trans (passes_push rfl)).trans
        (passes_push rfl)
    · cases h
  · cases h

theorem unicodeEscape_passes {slash : Nat} {cur next : Cursor} {c : Char}
    (h : unicodeEscape slash cur = .ok (c, next)) : cur.Passes next := by
  simp only [unicodeEscape, bind, Except.bind, pure, Except.pure] at h
  split at h
  · cases h
  · next a ha =>
    split at h
    · cases h
    · split at h
      · split at h
        · next cs hc =>
          split at h
          · cases h
          · next b hb =>
            split at h
            · simp only [Except.ok.injEq, Prod.mk.injEq] at h
              obtain ⟨_, rfl⟩ := h
              exact (((hex4_passes ha).trans (passes_push hc)).trans (passes_push rfl)).trans
                (hex4_passes hb)
            · cases h
        · cases h
      · simp only [Except.ok.injEq, Prod.mk.injEq] at h
        obtain ⟨_, rfl⟩ := h
        exact hex4_passes ha

theorem escape_passes {quote : Char} {opening slash : Nat} {cur next : Cursor} {c : Char}
    (h : escape quote opening slash cur = .ok (c, next)) : cur.Passes next := by
  rw [escape] at h
  split at h
  · cases h
  · next x cs hx =>
    split at h
    · exact (passes_push hx).trans (unicodeEscape_passes h)
    · split at h
      · cases h
      · split at h
        · split at h
          · cases h; exact passes_push hx
          · cases h
        · split at h
          · cases h; exact passes_push hx
          · cases h

/-- Reads the characters of a text up to and with the closing quote; `opening` is the offset of
the opening one. -/
def string (quote : Char) (opening : Nat) (cur : Cursor) : Except Fault (Text × Cursor) :=
  match _hr : cur.rest with
  | [] => .error ⟨.unterminatedString, opening⟩
  | c :: cs =>
    let next := cur.push c cs
    if c = quote then .ok ([], next)
    else if c = '\\' then
      match _he : escape quote opening cur.offset next with
      | .error fault => .error fault
      | .ok (e, next) =>
        match string quote opening next with
        | .error fault => .error fault
        | .ok (value, last) => .ok (e :: value, last)
    else
      match string quote opening next with
      | .error fault => .error fault
      | .ok (value, last) => .ok (c :: value, last)
termination_by cur.rest.length
decreasing_by
  · exact ((passes_push _hr).trans (escape_passes _he)).length_lt
  · exact (passes_push _hr).length_lt

theorem string_passes {quote : Char} {opening : Nat} {cur next : Cursor} {value : Text}
    (h : string quote opening cur = .ok (value, next)) : cur.Passes next := by
  fun_induction string quote opening cur generalizing value next with
  | case1 => cases h
  | case2 =>
    rename_i hr _
    cases h
    exact passes_push hr
  | case3 => cases h
  | case4 => cases h
  | case5 =>
    rename_i hs hr _ _ he ih
    cases h
    exact ((passes_push hr).trans (escape_passes he)).trans (ih hs)
  | case6 => cases h
  | case7 =>
    rename_i hr _ _ _ _ _ hs ih
    cases h
    exact (passes_push hr).trans (ih hs)

theorem keyword?_passes {cur next : Cursor} {kind : Kind} (h : keyword? cur = some (kind, next)) :
    cur.Passes next := by
  simp only [keyword?, Option.map_eq_some_iff, Prod.mk.injEq] at h
  obtain ⟨⟨w, k⟩, hk, _, rfl⟩ := h
  have hw : w ≠ [] := by
    have := List.mem_of_find?_eq_some hk
    simp only [keywords, List.mem_cons, Prod.mk.injEq, List.not_mem_nil, or_false] at this
    rcases this with ⟨rfl, _⟩ | ⟨rfl, _⟩ | ⟨rfl, _⟩ <;> decide
  have hp : w.isPrefixOf cur.rest = true := by
    have := List.find?_some hk
    simp only [startsWithWord, Bool.and_eq_true] at this
    exact this.1
  obtain ⟨t, ht⟩ := List.isPrefixOf_iff_prefix.1 hp
  cases w with
  | nil => exact absurd rfl hw
  | cons c w =>
    refine ⟨c, w, ?_, ?_⟩
    · simp [← ht]
    · simp [← ht]

theorem bareWord_passes {cur next : Cursor} {c : Char} {cs : Text} (hr : cur.rest = c :: cs)
    (hc : inWord c = true) (h : bareWord cur = .ok next) : cur.Passes next := by
  rw [bareWord] at h
  split at h
  · cases h
    refine ⟨c, cs.takeWhile inWord, ?_, ?_⟩
    · simp [skip, hr, hc, List.takeWhile_append_dropWhile]
    · simp [skip, hr, hc]
  · cases h

end LocaleStrings.Json.Lenient
