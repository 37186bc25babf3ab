import LocaleStrings.Json.Lenient.Tokens
import LocaleStrings.Json.Value

/-!
# Reading a text leniently

The reader goes through the tokens from left to right and keeps the containers that are open.
Commas between items or members may be missing, and one may follow the last.

* `State`: what was read so far, `State.step` takes one token and `State.finish` the end;
* `read`: the value of a text, if it has one.
-/

namespace LocaleStrings.Json.Lenient

/-- An array that is being read. -/
structure OpenArray where
  /-- The offset of its bracket. -/
  start : Nat
  /-- The items read so far, last one first. -/
  items : List Value

/-- An object that is being read. -/
structure OpenObject where
  /-- The offset of its brace. -/
  start : Nat
  /-- The members read so far, last one first. -/
  members : List (Text × Value)

/-- A container around what is being read. -/
inductive Frame where
  /-- The next item of an array. -/
  | item (array : OpenArray)
  /-- The value of a member of an object. -/
  | member (object : OpenObject) (key : Text)

/-- What was read so far. The frames are the containers around, innermost first. -/
inductive State where
  /-- Nothing yet. -/
  | root
  /-- In an array; `comma` says whether a comma may come. -/
  | inArray (array : OpenArray) (comma : Bool) (around : List Frame)
  /-- In an object, between members; `comma` says whether a comma may come. -/
  | inObject (object : OpenObject) (comma : Bool) (around : List Frame)
  /-- Behind a key. -/
  | afterKey (object : OpenObject) (key : Text) (around : List Frame)
  /-- Behind the colon of a member. -/
  | afterColon (object : OpenObject) (key : Text) (around : List Frame)
  /-- A whole value. -/
  | done (value : Value)

/-- Puts a complete value in its place. -/
def State.complete (v : Value) : List Frame → State
  | [] => .done v
  | .item a :: around => .inArray ⟨a.start, v :: a.items⟩ true around
  | .member o key :: around => .inObject ⟨o.start, (key, v) :: o.members⟩ true around

/-- Takes the first token of a value. -/
def State.begin (frames : List Frame) (t : Token) : Except Fault State :=
  match t.kind with
  | .openArray => .ok (.inArray ⟨t.start, []⟩ false frames)
  | .openObject => .ok (.inObject ⟨t.start, []⟩ false frames)
  | .string value => .ok (.complete (.string ⟨t.lexeme, value, t.start⟩) frames)
  | .number => .ok (.complete (.number t.lexeme) frames)
  | .boolean value => .ok (.complete (.boolean value) frames)
  | .null => .ok (.complete .null frames)
  | .closeArray => .error ⟨.unexpectedCloseBracket, t.start⟩
  | .closeObject => .error ⟨.unexpectedCloseBrace, t.start⟩
  | .comma => .error ⟨.unexpectedComma, t.start⟩
  | .colon => .error ⟨.unexpectedColon, t.start⟩
  | .word => .error ⟨.unexpectedWord, t.start⟩

/-- The key that a token stands for: a string, a bare word or a number. -/
def key? (t : Token) : Option Text :=
  match t.kind with
  | .string value => some value
  | .word | .number => some t.lexeme
  | _ => none

/-- Takes one token. -/
def State.step (s : State) (t : Token) : Except Fault State :=
  match s with
  | .root => State.begin [] t
  | .inArray a comma around =>
    if comma ∧ t.kind = .comma then .ok (.inArray a false around)
    else if t.kind = .closeArray then .ok (.complete (.array a.items.reverse) around)
    else State.begin (.item a :: around) t
  | .inObject o comma around =>
    if comma ∧ t.kind = .comma then .ok (.inObject o false around)
    else if t.kind = .closeObject then .ok (.complete (.object o.members.reverse) around)
    else match key? t with
      | some key => .ok (.afterKey o key around)
      | none => .error ⟨.unexpectedInObject, t.start⟩
  | .afterKey o key around =>
    if t.kind = .colon then .ok (.afterColon o key around)
    else .error ⟨.expectedColon, t.start⟩
  | .afterColon o key around => State.begin (.member o key :: around) t
  | .done _ => .error ⟨.severalValues, t.start⟩

/-- Takes the end of the text at `offset`. -/
def State.finish (s : State) (offset : Nat) : Except Fault (Option Value) :=
  match s with
  | .root => .ok none
  | .inArray a _ _ => .error ⟨.unterminatedArray, a.start⟩
  | .inObject o _ _ => .error ⟨.unterminatedObject, o.start⟩
  | .afterKey _ _ _ => .error ⟨.expectedColon, offset⟩
  | .afterColon _ _ _ => .error ⟨.expectedMemberValue, offset⟩
  | .done v => .ok (some v)

/-- Takes the end of a stream of tokens. -/
def State.close (s : State) : Ending → Except Fault (Option Value)
  | .finished offset => s.finish offset
  | .refused fault => .error fault

/-- Takes tokens from left to right. -/
def State.run (s : State) : List Token → Except Fault State
  | [] => .ok s
  | t :: ts => do
    let s ← s.step t
    s.run ts

/-- The value of a text; a text of blanks and comments has none. -/
def read (text : Text) : Except Fault (Option Value) := do
  let (ts, ending) := tokens (.start text)
  let s ← State.run .root ts
  s.close ending

end LocaleStrings.Json.Lenient
