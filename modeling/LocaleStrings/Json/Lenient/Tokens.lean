import LocaleStrings.Json.Lenient.Literal

/-!
# Lenient tokens

`tokens` cuts an option text into tokens and leaves out its comments. The stream ends with the end
of the text or with the fault of what stands where no token can be read.
-/

namespace LocaleStrings.Json.Lenient

open Cursor

/-- How a stream of tokens ends. -/
inductive Ending where
  /-- The text ends. -/
  | finished (offset : Nat)
  /-- No token can be read. -/
  | refused (fault : Fault)
deriving DecidableEq, Repr

/-- Reads the comment that starts with a slash. -/
def comment (cur : Cursor) (cs : Text) : Except Fault Cursor :=
  let next := cur.push '/' cs
  match cs with
  | '/' :: rest => .ok (lineComment (next.push '/' rest))
  | '*' :: rest =>
    match blockComment (next.push '*' rest) with
    | some last => .ok last
    | none => .error ⟨.unterminatedComment, cur.offset⟩
  | _ => .error ⟨.unexpectedToken, cur.offset⟩

/-- Reads the token, or the comment, whose first character `c` has `cs` behind it. -/
def token (cur : Cursor) (c : Char) (cs : Text) : Except Fault (Option Kind × Cursor) :=
  let next := cur.push c cs
  match Kind.ofMark? c with
  | some kind => .ok (some kind, next)
  | none =>
    if c = '"' ∨ c = '\'' then
      match string c cur.offset next with
      | .ok (value, last) => .ok (some (.string value), last)
      | .error fault => .error fault
    else if c = '/' then
      match comment cur cs with
      | .ok last => .ok (none, last)
      | .error fault => .error fault
    else if c = '-' ∨ c = '+' ∨ Ascii.isDigit c then
      match number cur with
      | .ok last => .ok (some .number, last)
      | .error fault => .error fault
    else match keyword? cur with
      | some (kind, last) => .ok (some kind, last)
      | none =>
        match bareWord cur with
        | .ok last => .ok (some .word, last)
        | .error fault => .error fault

theorem comment_passes {cur next : Cursor} {cs : Text} (hr : cur.rest = '/' :: cs)
    (h : comment cur cs = .ok next) : cur.Passes next := by
  have first := passes_push hr
  simp only [comment] at h
  split at h
  · cases h
    exact (first.trans (passes_push rfl)).trans_reaches (reaches_skip _ _)
  · split at h
    · next last hl =>
      cases h
      exact (first.trans (passes_push rfl)).trans (blockComment_passes hl)
    · cases h
  · cases h

theorem token_passes {cur next : Cursor} {c : Char} {cs : Text} {kind : Option Kind}
    (hr : cur.rest = c :: cs) (hc : isBlank c = false) (h : token cur c cs = .ok (kind, next)) :
    cur.Passes next := by
  have first := passes_push hr
  simp only [token] at h
  split at h
  · cases h; exact first
  · next hmark =>
    split at h
    · split at h
      · next hs => cases h; exact first.trans (string_passes hs)
      · cases h
    · split at h
      · next hslash =>
        subst hslash
        split at h
        · next hs => cases h; exact comment_passes hr hs
        · cases h
      · split at h
        · split at h
          · next hs => cases h; exact number_passes hs
          · cases h
        · split at h
          · next hs => cases h; exact keyword?_passes hs
          · split at h
            · next hs =>
              cases h
              refine bareWord_passes hr ?_ hs
              have hcolon : c ≠ ':' := by
                rintro rfl
                exact absurd hmark (by decide)
              simp [inWord, hc, hcolon]
            · cases h

/-- The cursor behind the blanks stands before no blank. -/
theorem isBlank_skip {cur : Cursor} {c : Char} {cs : Text}
    (h : (cur.skip isBlank).rest = c :: cs) : isBlank c = false := by
  have := List.head?_dropWhile_not isBlank cur.rest
  simp only [skip] at h
  rw [h] at this
  simpa using this

/-- The tokens from a cursor on, and how they end. -/
def tokens (cur : Cursor) : List Token × Ending :=
  let here := cur.skip isBlank
  match _hr : here.rest with
  | [] => ([], .finished here.offset)
  | c :: cs =>
    match _ht : token here c cs with
    | .error fault => ([], .refused fault)
    | .ok (none, next) => tokens next
    | .ok (some kind, next) =>
      let (others, ending) := tokens next
      (.between here next kind :: others, ending)
termination_by cur.rest.length
decreasing_by
  · exact ((reaches_skip isBlank cur).trans_passes
      (token_passes _hr (isBlank_skip _hr) _ht)).length_lt
  · exact ((reaches_skip isBlank cur).trans_passes
      (token_passes _hr (isBlank_skip _hr) _ht)).length_lt

end LocaleStrings.Json.Lenient
