import LocaleStrings.Json.Strict.Fault
import LocaleStrings.Json.Token
import LocaleStrings.Number.Decimal

/-!
# Strict words, numbers and strings

Each reader takes the cursor at, or just behind, the first character of a literal and gives the
cursor behind the literal, or the fault that ends the reading.

* `word`: the rest of `true`, `false` or `null`;
* `number`: a number without its sign, whose value as a double must not overflow;
* `string`: the characters of a string up to and with the closing quote, decoded.

The lemmas `word_reaches`, `number_passes` and `string_passes` say that a reader that succeeds
stops at a later cursor of the same text.
-/

namespace LocaleStrings.Json.Strict

open Cursor

/-! ## Words -/

/-- Reads exactly the characters `expected`. -/
def word : Text → Cursor → Except Fault Cursor
  | [], cur => .ok cur
  | e :: es, cur =>
    match cur.rest with
    | [] => .error ⟨.endInValue, cur.offset⟩
    | c :: cs => if c = e then word es (cur.push c cs) else .error ⟨.expectedWord, cur.offset + 1⟩

/-! ## Numbers -/

/-- Reads the digits before the point: a zero alone, or digits that start with another one. -/
def integerPart (cur : Cursor) : Except Fault Cursor :=
  match cur.rest with
  | [] => .error ⟨.endInValue, cur.offset⟩
  | c :: cs =>
    let next := cur.push c cs
    if c = '0' then
      if (next.rest.head?.any Ascii.isDigit) then .error ⟨.invalidNumber, next.offset + 1⟩
      else .ok next
    else if Ascii.isDigit c then .ok (next.skip Ascii.isDigit)
    else .error ⟨.invalidNumber, cur.offset + 1⟩

/-- Reads a point and the digits behind it, if there is a point. -/
def fractionPart (cur : Cursor) : Except Fault Cursor :=
  match cur.rest with
  | '.' :: cs =>
    let next := cur.push '.' cs
    match cs with
    | [] => .error ⟨.endInValue, next.offset⟩
    | d :: _ =>
      if Ascii.isDigit d then .ok (next.skip Ascii.isDigit)
      else .error ⟨.invalidNumber, next.offset + 1⟩
  | _ => .ok cur

/-- Reads the digits of an exponent. -/
def exponentDigits (cur : Cursor) : Except Fault Cursor :=
  match cur.rest with
  | [] => .error ⟨.endInValue, cur.offset⟩
  | d :: _ =>
    if Ascii.isDigit d then .ok (cur.skip Ascii.isDigit)
    else .error ⟨.invalidNumber, cur.offset + 1⟩

/-- Reads an exponent, if there is one. -/
def exponentPart (cur : Cursor) : Except Fault Cursor :=
  match cur.rest with
  | [] => .ok cur
  | c :: cs => if c = 'e' ∨ c = 'E' then exponentDigits (cur.push c cs).skipSign else .ok cur

/-- Reads a number without sign. It is refused if the arithmetic of `Decimal.value?` overflows. -/
def number (cur : Cursor) : Except Fault Cursor := do
  let next ← integerPart cur
  let next ← fractionPart next
  let next ← exponentPart next
  match (Decimal.ofLexeme (cur.upTo next)).overrun? with
  | some unread => throw ⟨.numberOutOfRange, next.offset - unread.length⟩
  | none => return next

/-! ## Strings -/

/-- The value of four hexadecimal digits. -/
def hexValue4? (a b c d : Char) : Option Nat := do
  let a ← Ascii.hexValue? a
  let b ← Ascii.hexValue? b
  let c ← Ascii.hexValue? c
  let d ← Ascii.hexValue? d
  return ((a * 16 + b) * 16 + c) * 16 + d

/-- The fault of an escape that does not go on with four hexadecimal digits. -/
def hexFault (cur : Cursor) : Fault :=
  if Text.size cur.rest < 4 then ⟨.endInString, cur.endOffset⟩
  else ⟨.invalidEscape, cur.offset + 4⟩

/-- Reads four hexadecimal digits. -/
def hex4 (cur : Cursor) : Except Fault (Nat × Cursor) :=
  match cur.rest with
  | a :: b :: c :: d :: cs =>
    match hexValue4? a b c d with
    | some n => .ok (n, (((cur.push a (b :: c :: d :: cs)).push b (c :: d :: cs)).push c
        (d :: cs)).push d cs)
    | none => .error (hexFault cur)
  | _ => .error (hexFault cur)

/-- Reads the character that the first half of a surrogate pair must be followed by. -/
def continuation (expected : Char) (cur : Cursor) : Except Fault Cursor :=
  match cur.rest with
  | [] => .error ⟨.endInString, cur.offset⟩
  | c :: cs =>
    if c = expected then .ok (cur.push c cs) else .error ⟨.endOfHexEscape, cur.offset + 1⟩

/-- Reads the digits of a numeric escape, and the escape of the second half if they are the first
half of a surrogate pair. -/
def unicodeEscape (cur : Cursor) : Except Fault (Char × Cursor) := do
  let (n, next) ← hex4 cur
  if isLowSurrogate n then throw ⟨.loneSurrogate, next.offset⟩
  else if isHighSurrogate n then
    let next ← continuation '\\' next
    let next ← continuation 'u' next
    let (m, next) ← hex4 next
    if isLowSurrogate m then return (ofSurrogates n m, next)
    else throw ⟨.loneSurrogate, next.offset⟩
  else return (Char.ofNat n, next)

/-- Reads an escape behind its backslash. -/
def escape (cur : Cursor) : Except Fault (Char × Cursor) :=
  match cur.rest with
  | [] => .error ⟨.endInString, cur.offset⟩
  | c :: cs =>
    if c = 'u' then unicodeEscape (cur.push c cs)
    else match escaped? c with
      | some e => .ok (e, cur.push c cs)
      | none => .error ⟨.invalidEscape, cur.offset + 1⟩

/-! ## Readers go forward -/

theorem word_reaches {expected : Text} {cur next : Cursor} (h : word expected cur = .ok next) :
    cur.Reaches next := by
  induction expected generalizing cur with
  | nil =>
    simp only [word, Except.ok.injEq] at h
    exact h ▸ Reaches.refl _
  | cons e es ih =>
    rw [word] at h
    split at h
    · cases h
    · next c cs hc =>
      split at h
      · exact (passes_push hc).reaches.trans (ih h)
      · cases h

theorem integerPart_passes {cur next : Cursor} (h : integerPart cur = .ok next) :
    cur.Passes next := by
  rw [integerPart] at h
  split at h
  · cases h
  · next c cs hc =>
    dsimp only at h
    split at h
    · split at h
      · cases h
      · cases h; exact passes_push hc
    · split at h
      · cases h; exact (passes_push hc).trans_reaches (reaches_skip _ _)
      · cases h

theorem fractionPart_reaches {cur next : Cursor} (h : fractionPart cur = .ok next) :
    cur.Reaches next := by
  rw [fractionPart] at h
  split at h
  · next cs hc =>
    dsimp only at h
    split at h
    · cases h
    · split at h
      · cases h; exact ((passes_push hc).trans_reaches (reaches_skip _ _)).reaches
      · cases h
  · cases h; exact Reaches.refl _

theorem exponentDigits_reaches {cur next : Cursor} (h : exponentDigits cur = .ok next) :
    cur.Reaches next := by
  rw [exponentDigits] at h
  split at h
  · cases h
  · split at h
    · cases h; exact reaches_skip _ _
    · cases h

theorem exponentPart_reaches {cur next : Cursor} (h : exponentPart cur = .ok next) :
    cur.Reaches next := by
  rw [exponentPart] at h
  split at h
  · cases h; exact Reaches.refl _
  · next c cs hc =>
    split at h
    · exact ((passes_push hc).reaches.trans (reaches_skipSign _)).trans (exponentDigits_reaches h)
    · cases h; exact Reaches.refl _

theorem number_passes {cur next : Cursor} (h : number cur = .ok next) : cur.Passes next := by
  simp only [number, bind, Except.bind] at h
  split at h
  · cases h
  · next a ha =>
    split at h
    · cases h
    · next b hb =>
      split at h
      · cases h
      · next c hc =>
        have reach :=
          ((integerPart_passes ha).trans_reaches (fractionPart_reaches hb)).trans_reaches
            (exponentPart_reaches hc)
        split at h
        · cases h
        · cases h; exact reach

theorem hex4_passes {cur next : Cursor} {n : Nat} (h : hex4 cur = .ok (n, next)) :
    cur.Passes next := by
  rw [hex4] at h
  split at h
  · next a b c d cs hc =>
    split at h
    · cases h
      exact (((passes_push hc).trans (passes_push rfl)).trans (passes_push rfl)).trans
        (passes_push rfl)
    · cases h
  · cases h

theorem continuation_passes {expected : Char} {cur next : Cursor}
    (h : continuation expected cur = .ok next) : cur.Passes next := by
  rw [continuation] at h
  split at h
  · cases h
  · next c cs hc =>
    split at h
    · cases h; exact passes_push hc
    · cases h

theorem unicodeEscape_passes {cur next : Cursor} {c : Char}
    (h : unicodeEscape cur = .ok (c, next)) : cur.Passes next := by
  simp only [unicodeEscape, bind, Except.bind, pure, Except.pure] at h
  split at h
  · cases h
  · next a ha =>
    split at h
    · cases h
    · split at h
      · split at h
        · cases h
        · next b hb =>
          split at h
          · cases h
          · next d hd =>
            split at h
            · cases h
            · next e he =>
              split at h
              · simp only [Except.ok.injEq, Prod.mk.injEq] at h
                obtain ⟨_, rfl⟩ := h
                exact (((hex4_passes ha).trans (continuation_passes hb)).trans
                  (continuation_passes hd)).trans (hex4_passes he)
              · cases h
      · simp only [Except.ok.injEq, Prod.mk.injEq] at h
        obtain ⟨_, rfl⟩ := h
        exact hex4_passes ha

theorem escape_passes {cur next : Cursor} {c : Char} (h : escape cur = .ok (c, next)) :
    cur.Passes next := by
  rw [escape] at h
  split at h
  · cases h
  · next x cs hx =>
    split at h
    · exact (passes_push hx).trans (unicodeEscape_passes h)
    · split at h
      · cases h; exact passes_push hx
      · cases h

/-- Reads the characters of a string up to and with the closing quote. -/
def string (cur : Cursor) : Except Fault (Text × Cursor) :=
  match _hr : cur.rest with
  | [] => .error ⟨.endInString, cur.offset⟩
  | c :: cs =>
    let next := cur.push c cs
    if c = '"' then .ok ([], next)
    else if c < ' ' then .error ⟨.controlCharacter, cur.offset + 1⟩
    else if c = '\\' then
      match _he : escape next with
      | .error fault => .error fault
      | .ok (e, next) =>
        match string next with
        | .error fault => .error fault
        | .ok (value, last) => .ok (e :: value, last)
    else
      match string next with
      | .error fault => .error fault
      | .ok (value, last) => .ok (c :: value, last)
termination_by cur.rest.length
decreasing_by
  · exact ((passes_push _hr).trans (escape_passes _he)).length_lt
  · exact (passes_push _hr).length_lt

theorem string_passes {cur next : Cursor} {value : Text} (h : string cur = .ok (value, next)) :
    cur.Passes next := by
  fun_induction string cur generalizing value next with
  | case1 => cases h
  | case2 cur cs hr => cases h; exact passes_push hr
  | case3 => cases h
  | case4 => cases h
  | case5 => cases h
  | case6 =>
    rename_i hs hr _ _ _ he ih
    cases h
    exact ((passes_push hr).trans (escape_passes he)).trans (ih hs)
  | case7 => cases h
  | case8 =>
    rename_i hr _ _ _ _ _ _ hs ih
    cases h
    exact (passes_push hr).trans (ih hs)

end LocaleStrings.Json.Strict
