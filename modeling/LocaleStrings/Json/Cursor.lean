import LocaleStrings.Text.Basic

/-!
# Cursors

A cursor is a place in a text: its byte offset and what is left to read there. Readers take a
cursor and give the cursor behind what they read.

* `Cursor.start`, `Cursor.push`, `Cursor.skip`: the first cursor, and the ones behind a character
  or a run of characters;
* `Cursor.upTo`: the characters between two cursors;
* `Cursor.Reaches`, `Cursor.Passes`: a later cursor of the same text, and a strictly later one.
-/

namespace LocaleStrings.Json

/-- A place in a text. -/
structure Cursor where
  /-- The number of bytes before the place. -/
  offset : Nat
  /-- The characters behind the place. -/
  rest : Text
deriving DecidableEq, Repr

namespace Cursor

/-- The beginning of a text. -/
def start (text : Text) : Cursor := ⟨0, text⟩

/-- The cursor behind character `c`, when `cs` is left behind it. -/
def push (cur : Cursor) (c : Char) (cs : Text) : Cursor := ⟨cur.offset + c.utf8Size, cs⟩

/-- The cursor behind the longest run of characters that satisfy `p`. -/
def skip (p : Char → Bool) (cur : Cursor) : Cursor :=
  ⟨cur.offset + Text.size (cur.rest.takeWhile p), cur.rest.dropWhile p⟩

/-- The cursor behind a sign, if there is one. -/
def skipSign (cur : Cursor) : Cursor :=
  match cur.rest with
  | '+' :: cs => cur.push '+' cs
  | '-' :: cs => cur.push '-' cs
  | _ => cur

/-- The characters between two places of the same text. -/
def upTo (cur next : Cursor) : Text := Text.within (next.offset - cur.offset) cur.rest

/-- The offset of the end of the text. -/
def endOffset (cur : Cursor) : Nat := cur.offset + Text.size cur.rest

/-- `b` is a place of the same text as `a`, and not before it. -/
def Reaches (a b : Cursor) : Prop :=
  ∃ taken : Text, a.rest = taken ++ b.rest ∧ b.offset = a.offset + Text.size taken

/-- `b` is a place of the same text as `a`, at least one character behind it. -/
def Passes (a b : Cursor) : Prop :=
  ∃ c taken, a.rest = c :: (taken ++ b.rest) ∧ b.offset = a.offset + Text.size (c :: taken)

theorem Reaches.refl (a : Cursor) : Reaches a a := ⟨[], by simp⟩

theorem Reaches.trans {a b c : Cursor} (h : Reaches a b) (h' : Reaches b c) : Reaches a c := by
  obtain ⟨s, hs, hso⟩ := h
  obtain ⟨t, ht, hto⟩ := h'
  exact ⟨s ++ t, by simp [hs, ht], by simp [hto, hso, Nat.add_assoc]⟩

theorem Passes.reaches {a b : Cursor} (h : Passes a b) : Reaches a b := by
  obtain ⟨c, t, ht, ho⟩ := h
  exact ⟨c :: t, by simpa using ht, ho⟩

theorem Passes.trans_reaches {a b c : Cursor} (h : Passes a b) (h' : Reaches b c) :
    Passes a c := by
  obtain ⟨x, s, hs, hso⟩ := h
  obtain ⟨t, ht, hto⟩ := h'
  exact ⟨x, s ++ t, by simp [hs, ht], by simp [hto, hso, Nat.add_assoc]⟩

theorem Reaches.trans_passes {a b c : Cursor} (h : Reaches a b) (h' : Passes b c) :
    Passes a c := by
  obtain ⟨s, hs, hso⟩ := h
  obtain ⟨x, t, ht, hto⟩ := h'
  cases s with
  | nil =>
    refine ⟨x, t, by simpa [hs] using ht, ?_⟩
    simpa [hso] using hto
  | cons y s =>
    refine ⟨y, s ++ x :: t, by simp [hs, ht], ?_⟩
    simp only [hto, hso, Text.size_cons, Text.size_append]
    omega

theorem Passes.trans {a b c : Cursor} (h : Passes a b) (h' : Passes b c) : Passes a c :=
  h.trans_reaches h'.reaches

theorem passes_push {cur : Cursor} {c : Char} {cs : Text} (h : cur.rest = c :: cs) :
    Passes cur (cur.push c cs) :=
  ⟨c, [], by simp [h, push], by simp [push]⟩

theorem reaches_skip (p : Char → Bool) (cur : Cursor) : Reaches cur (cur.skip p) :=
  ⟨cur.rest.takeWhile p, by simp [skip, List.takeWhile_append_dropWhile], rfl⟩

theorem reaches_skipSign (cur : Cursor) : Reaches cur cur.skipSign := by
  rw [skipSign]
  split
  · next hc => exact (passes_push hc).reaches
  · next hc => exact (passes_push hc).reaches
  · exact Reaches.refl _

theorem Passes.length_lt {a b : Cursor} (h : Passes a b) : b.rest.length < a.rest.length := by
  obtain ⟨c, t, ht, _⟩ := h
  simp only [ht, List.length_cons, List.length_append]
  omega

theorem Reaches.length_le {a b : Cursor} (h : Reaches a b) : b.rest.length ≤ a.rest.length := by
  obtain ⟨t, ht, _⟩ := h
  simp [ht]

end Cursor

end LocaleStrings.Json
