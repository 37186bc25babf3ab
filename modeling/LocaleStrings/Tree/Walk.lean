import LocaleStrings.Tree.Node

/-!
# Walking over trees

A visitor is told of every node that a walk enters and leaves, and chooses at each whether the walk
goes on, passes over the children, or stops. A walk that stops tells nothing more.

* `Flow`, `Choice`, `Visitor`: what a visitor answers;
* `Visitor.walk`, `Visitor.walkAll`: the walks over a node and over a list of nodes;
* `Visitor.ofHooks`: the visitor that is told of entering and leaving and never looks below a
  string;
* `Visitor.ofVisits`: the visitor that chooses at every node;
* `Visitor.ofNotes`: the visitor that notes every node and prunes by type.
-/

namespace LocaleStrings

/-- Whether a walk goes on. -/
inductive Flow where
  | go
  | stop
deriving DecidableEq, Repr

/-- What a walk does at a node. -/
inductive Choice where
  /-- It goes on with the children. -/
  | descend
  /-- It passes over the children. -/
  | skip
  /-- It stops. -/
  | stop
deriving DecidableEq, Repr

/-- What is told of a walk, with a state that goes along. -/
structure Visitor (σ : Type) where
  /-- Told before anything else of a node. -/
  enter : Node → σ → σ × Flow
  /-- Chooses what happens to the children. -/
  visit : Node → σ → σ × Choice
  /-- Told behind the children of a node. -/
  exit : Node → σ → σ × Flow

namespace Visitor

variable {σ : Type}

mutual

/-- Walks over a node. -/
def walk (v : Visitor σ) : Node → σ → σ × Flow
  | .mk type raw span loc children value, s =>
    let n : Node := .mk type raw span loc children value
    match v.enter n s with
    | (s, .stop) => (s, .stop)
    | (s, .go) =>
      match v.visit n s with
      | (s, .stop) => (s, .stop)
      | (s, .skip) => v.exit n s
      | (s, .descend) =>
        match walkAll v children s with
        | (s, .stop) => (s, .stop)
        | (s, .go) => v.exit n s

/-- Walks over nodes from left to right. -/
def walkAll (v : Visitor σ) : List Node → σ → σ × Flow
  | [], s => (s, .go)
  | n :: ns, s =>
    match walk v n s with
    | (s, .stop) => (s, .stop)
    | (s, .go) => walkAll v ns s

end

/-- The choice of visitors that do not choose: the walk goes below every node but strings. -/
def defaultChoice (n : Node) : Choice := if n.type.isText then .skip else .descend

/-- The visitor that is only told of entering and leaving. -/
def ofHooks (enter exit : Node → σ → σ × Flow) : Visitor σ where
  enter := enter
  visit n s := (s, defaultChoice n)
  exit := exit

/-- The visitor that only chooses. -/
def ofVisits (visit : Node → σ → σ × Choice) : Visitor σ where
  enter _ s := (s, .go)
  visit := visit
  exit _ s := (s, .go)

/-- The visitor that notes every node it comes to, and passes over the children of nodes of the
types `pruned`. -/
def ofNotes (note : Node → σ → σ × Flow) (pruned : NodeType → Bool) : Visitor σ :=
  .ofVisits fun n s =>
    match note n s with
    | (s, .stop) => (s, .stop)
    | (s, .go) => (s, if pruned n.type then .skip else .descend)

end Visitor

end LocaleStrings
