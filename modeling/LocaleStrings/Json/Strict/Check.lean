import LocaleStrings.Json.Describe
import LocaleStrings.Json.Strict.Tokens

/-!
# The strict check

A text is JSON if its tokens form one value. The check goes through the tokens from left to right
and keeps the containers that are open; at most 127 of them may be open at a time.

An object whose first key is `embeddedKey` holds one JSON text in a string, which is checked on its
own; its faults are reported with their places in the embedded text.

* `State`: what may come next, `State.step` takes one token and `State.finish` the end;
* `State.run`: takes tokens in order and checks the embedded texts among them;
* `check`: the report on a text that is no JSON.
-/

namespace LocaleStrings.Json.Strict

/-- An open container. -/
inductive Container where
  | array
  | object
deriving DecidableEq, Repr

/-- What may come next. The list holds the open containers, innermost first. -/
inductive State where
  /-- A value. -/
  | value (around : List Container)
  /-- The first element of an array, or its end. -/
  | firstElement (around : List Container)
  /-- An element behind a comma. -/
  | nextElement (around : List Container)
  /-- A comma behind an element, or the end of the array. -/
  | afterElement (around : List Container)
  /-- The first key of an object, or its end. -/
  | firstKey (around : List Container)
  /-- A key behind a comma. -/
  | nextKey (around : List Container)
  /-- The colon behind a key. -/
  | afterKey (around : List Container)
  /-- A comma behind a member, or the end of the object. -/
  | afterMember (around : List Container)
  /-- The colon behind the key of an embedded text. -/
  | afterEmbeddedKey (around : List Container)
  /-- The string that holds an embedded text. -/
  | embedded (around : List Container)
  /-- The end of the object that holds an embedded text. -/
  | afterEmbedded (around : List Container)
  /-- Nothing. -/
  | done
deriving DecidableEq, Repr

/-- The greatest number of containers that may be open at a time. -/
def depthLimit : Nat := 127

/-- The key that marks an object as the holder of an embedded text. -/
def embeddedKey : Text := "$serde_json::private::RawValue".toList

/-- What may come behind a complete value. -/
def State.afterValue : List Container → State
  | [] => .done
  | .array :: around => .afterElement around
  | .object :: around => .afterMember around

/-- Takes the first token of a value inside the containers `opened`. -/
def State.begin (opened : List Container) (t : Token) : Except Fault State :=
  match t.kind with
  | .openArray =>
    if opened.length < depthLimit then .ok (.firstElement opened)
    else .error ⟨.tooDeep, t.start + 1⟩
  | .openObject =>
    if opened.length < depthLimit then .ok (.firstKey opened)
    else .error ⟨.tooDeep, t.start + 1⟩
  | .string _ | .number | .boolean _ | .null => .ok (.afterValue opened)
  | .closeArray | .closeObject | .comma | .colon | .word => .error ⟨.expectedValue, t.start + 1⟩

/-- What may come behind the first key of an object. -/
def State.afterFirstKey (around : List Container) (key : Text) : State :=
  if key = embeddedKey then .afterEmbeddedKey around else .afterKey around

/-- Takes the token that stands in place of an embedded text: only a string can hold one. Scalars
are read before they are refused, and containers are not opened. -/
def State.beginEmbedded (around : List Container) (t : Token) : Except Fault State :=
  match t.kind with
  | .string _ => .ok (.afterEmbedded around)
  | .number => .error ⟨.notText (Data.ofNumber t.lexeme).describe, t.stop⟩
  | .boolean b => .error ⟨.notText (Data.boolean b).describe, t.stop⟩
  | .null => .error ⟨.notText Data.null.describe, t.stop⟩
  | .openArray => .error ⟨.notText (Data.array []).describe, t.start⟩
  | .openObject => .error ⟨.notText (Data.object []).describe, t.start⟩
  | .closeArray | .closeObject | .comma | .colon | .word => .error ⟨.expectedValue, t.start + 1⟩

/-- Takes one token. -/
def State.step (s : State) (t : Token) : Except Fault State :=
  match s with
  | .value opened => State.begin opened t
  | .firstElement around =>
    if t.kind = .closeArray then .ok (.afterValue around) else State.begin (.array :: around) t
  | .nextElement around =>
    if t.kind = .closeArray then .error ⟨.trailingComma, t.start + 1⟩
    else State.begin (.array :: around) t
  | .afterElement around =>
    if t.kind = .comma then .ok (.nextElement around)
    else if t.kind = .closeArray then .ok (.afterValue around)
    else .error ⟨.expectedCommaOrBracket, t.start + 1⟩
  | .firstKey around =>
    match t.kind with
    | .string key => .ok (.afterFirstKey around key)
    | .closeObject => .ok (.afterValue around)
    | _ => .error ⟨.keyNotString, t.start + 1⟩
  | .nextKey around =>
    match t.kind with
    | .string _ => .ok (.afterKey around)
    | .closeObject => .error ⟨.trailingComma, t.start + 1⟩
    | _ => .error ⟨.keyNotString, t.start + 1⟩
  | .afterKey around =>
    if t.kind = .colon then .ok (.value (.object :: around))
    else .error ⟨.expectedColon, t.start + 1⟩
  | .afterMember around =>
    if t.kind = .comma then .ok (.nextKey around)
    else if t.kind = .closeObject then .ok (.afterValue around)
    else .error ⟨.expectedCommaOrBrace, t.start + 1⟩
  | .afterEmbeddedKey around =>
    if t.kind = .colon then .ok (.embedded around) else .error ⟨.expectedColon, t.start + 1⟩
  | .embedded around => State.beginEmbedded around t
  | .afterEmbedded around =>
    if t.kind = .closeObject then .ok (.afterValue around)
    else if t.kind = .comma then .error ⟨.trailingComma, t.start + 1⟩
    else .error ⟨.trailingCharacters, t.start + 1⟩
  | .done => .error ⟨.trailingCharacters, t.start + 1⟩

/-- Takes the end of the text at `offset`. -/
def State.finish (s : State) (offset : Nat) : Except Fault Unit :=
  match s with
  | .value _ | .nextElement _ | .nextKey _ | .embedded _ => .error ⟨.endInValue, offset⟩
  | .firstElement _ | .afterElement _ => .error ⟨.endInArray, offset⟩
  | .firstKey _ | .afterKey _ | .afterMember _ | .afterEmbeddedKey _ | .afterEmbedded _ =>
    .error ⟨.endInObject, offset⟩
  | .done => .ok ()

/-- The fault met where no token can be read: the fault of the token, if its kind is what may come
next. -/
def State.refuse (s : State) (start : Nat) (inString : Bool) (fault : Fault) : Fault :=
  match s with
  | .value _ | .firstElement _ | .nextElement _ | .embedded _ => fault
  | .firstKey _ | .nextKey _ => if inString then fault else ⟨.keyNotString, start + 1⟩
  | .afterElement _ => ⟨.expectedCommaOrBracket, start + 1⟩
  | .afterKey _ | .afterEmbeddedKey _ => ⟨.expectedColon, start + 1⟩
  | .afterMember _ => ⟨.expectedCommaOrBrace, start + 1⟩
  | .afterEmbedded _ | .done => ⟨.trailingCharacters, start + 1⟩

/-- Takes the end of a stream of tokens. -/
def State.close (s : State) : Ending → Except Fault Unit
  | .finished offset => s.finish offset
  | .refused start inString fault => .error (s.refuse start inString fault)

/-- The text that a token holds where an embedded text comes next. -/
def State.embeddedText? (s : State) (t : Token) : Option Text :=
  match s, t.kind with
  | .embedded _, .string inner => some inner
  | _, _ => none

/-- Checks the text that a token holds, if there is one. -/
def checkEmbedded (inner : Text → Except Report Unit) : Option Text → Except Report Unit
  | none => .ok ()
  | some text => inner text

/-- Takes tokens of `text` from left to right; `inner` checks the embedded texts. -/
def State.run (inner : Text → Except Report Unit) (text : Text) (s : State) :
    List Token → Except Report State
  | [] => .ok s
  | t :: ts => do
    let next ← (s.step t).mapError (·.report text)
    checkEmbedded inner (s.embeddedText? t)
    next.run inner text ts

/-- Succeeds if the text is JSON, and reports its first fault otherwise. An embedded text is
shorter than the text it stands in. -/
def check (text : Text) : Except Report Unit := do
  let (ts, ending) := tokens (.start text)
  let inner (embedded : Text) : Except Report Unit :=
    if embedded.length < text.length then check embedded else .ok ()
  let s ← State.run inner text (.value []) ts
  (s.close ending).mapError (·.report text)
termination_by text.length

end LocaleStrings.Json.Strict
