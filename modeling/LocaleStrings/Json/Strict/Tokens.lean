import LocaleStrings.Except
import LocaleStrings.Json.Strict.Literal

/-!
# Strict tokens

`tokens` cuts a text into its strict tokens. Where no token can be read, the stream ends with the
fault that a reader meets which goes on there; the end of the text ends it without fault.

* `Ending`: how a stream of tokens ends;
* `token`: the token at a cursor that stands before a character other than a blank;
* `tokens`: all tokens from a cursor on.
-/

namespace LocaleStrings.Json.Strict

open Cursor

/-- The blanks of strict texts. -/
def isBlank (c : Char) : Bool := c == ' ' || c == '\n' || c == '\t' || c == '\r'

/-- How a stream of tokens ends. -/
inductive Ending where
  /-- The text ends. -/
  | finished (offset : Nat)
  /-- No token can be read at an offset. A reader that expects a value there meets `fault`, and so
  does one that expects a string, if a string starts there. -/
  | refused (start : Nat) (inString : Bool) (fault : Fault)
deriving DecidableEq, Repr

/-- Reads a token whose first character `c` has `cs` behind it. -/
def token (cur : Cursor) (c : Char) (cs : Text) : Except Fault (Kind × Cursor) :=
  let next := cur.push c cs
  match Kind.ofMark? c with
  | some kind => .ok (kind, next)
  | none =>
    if c = '"' then (string next).map fun (value, last) => (.string value, last)
    else if c = '-' then (number next).map fun last => (.number, last)
    else if Ascii.isDigit c then (number cur).map fun last => (.number, last)
    else if c = 't' then (word "rue".toList next).map fun last => (.boolean true, last)
    else if c = 'f' then (word "alse".toList next).map fun last => (.boolean false, last)
    else if c = 'n' then (word "ull".toList next).map fun last => (.null, last)
    else .error ⟨.expectedValue, cur.offset + 1⟩

theorem token_passes {cur next : Cursor} {c : Char} {cs : Text} {kind : Kind}
    (hr : cur.rest = c :: cs) (h : token cur c cs = .ok (kind, next)) : cur.Passes next := by
  have first := passes_push hr
  simp only [token] at h
  split at h
  · cases h; exact first
  · repeat' split at h
    · obtain ⟨⟨value, last⟩, hs, he⟩ := Except.exists_of_map_eq_ok h
      cases he
      exact first.trans (string_passes hs)
    · obtain ⟨last, hs, he⟩ := Except.exists_of_map_eq_ok h
      cases he
      exact first.trans (number_passes hs)
    · obtain ⟨last, hs, he⟩ := Except.exists_of_map_eq_ok h
      cases he
      exact number_passes hs
    · obtain ⟨last, hs, he⟩ := Except.exists_of_map_eq_ok h
      cases he
      exact first.trans_reaches (word_reaches hs)
    · obtain ⟨last, hs, he⟩ := Except.exists_of_map_eq_ok h
      cases he
      exact first.trans_reaches (word_reaches hs)
    · obtain ⟨last, hs, he⟩ := Except.exists_of_map_eq_ok h
      cases he
      exact first.trans_reaches (word_reaches hs)
    · cases h

/-- The tokens from a cursor on, and how they end. -/
def tokens (cur : Cursor) : List Token × Ending :=
  let here := cur.skip isBlank
  match _hr : here.rest with
  | [] => ([], .finished here.offset)
  | c :: cs =>
    match _ht : token here c cs with
    | .error fault => ([], .refused here.offset (c == '"') fault)
    | .ok (kind, next) =>
      let (others, ending) := tokens next
      (.between here next kind :: others, ending)
termination_by cur.rest.length
decreasing_by
  exact ((reaches_skip isBlank cur).trans_passes (token_passes _hr _ht)).length_lt

end LocaleStrings.Json.Strict
