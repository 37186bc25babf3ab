import LocaleStrings.Tree.Walk

/-!
# The shape of trees

A well-shaped tree has a document at its root. Each of its nodes has ends in order, a text as long
as its span, a value exactly if it is a string, and children inside it that start in order.

* `ShapeError`: what is wrong with a tree, with its wording in `ShapeError.message`;
* `Node.check`, `Node.fault?`: the first thing that is wrong with one node;
* `Node.validateBy`, `Node.validate`: the first thing that is wrong with a tree, node by node from
  the root down.
-/

namespace LocaleStrings

/-- What is wrong with a tree. -/
inductive ShapeError where
  | rootNotDocument (type : NodeType)
  | invertedRange (type : NodeType) (span : Span)
  | invertedLocation (type : NodeType) (loc : Location)
  | rawLengthMismatch (type : NodeType) (length : Nat) (span : Span)
  | invalidValue (type : NodeType)
  | unexpectedChildren (type : NodeType)
  | childOutOfParent (parent child : Span)
  | childrenOutOfOrder (previous current : Span)
deriving DecidableEq, Repr

namespace ShapeError

/-- The name of an error. -/
def name : ShapeError → String
  | .rootNotDocument _ => "RootNotDocument"
  | .invertedRange _ _ => "InvertedRange"
  | .invertedLocation _ _ => "InvertedLocation"
  | .rawLengthMismatch _ _ _ => "RawLengthMismatch"
  | .invalidValue _ => "InvalidValue"
  | .unexpectedChildren _ => "UnexpectedChildren"
  | .childOutOfParent _ _ => "ChildOutOfParent"
  | .childrenOutOfOrder _ _ => "ChildrenOutOfOrder"

/-- The wording of an error. -/
def message : ShapeError → String
  | .rootNotDocument type => s!"root node must be a Document, found {type.name}"
  | .invertedRange type span => s!"{type.name} has an inverted range {span.describe}"
  | .invertedLocation type loc => s!"{type.name} has an inverted location {loc.describe}"
  | .rawLengthMismatch type length span =>
    s!"{type.name} raw length {length} does not match range {span.describe}"
  | .invalidValue type => s!"{type.name} has an invalid value field"
  | .unexpectedChildren type => s!"{type.name} must not have children"
  | .childOutOfParent parent child =>
    s!"{child.describe} escapes parent range {parent.describe}"
  | .childrenOutOfOrder previous current =>
    s!"child {current.describe} starts before previous sibling {previous.describe}"

end ShapeError

/-- Checks that the spans of children lie in the span of their parent and start in order. -/
def checkChildren (parent : Span) : (previous : Option Span) → List Span → Except ShapeError Unit
  | _, [] => .ok ()
  | previous, child :: others =>
    if parent.encloses child then
      match previous with
      | some p =>
        if child.start < p.start then .error (.childrenOutOfOrder p child)
        else checkChildren parent (some child) others
      | none => checkChildren parent (some child) others
    else .error (.childOutOfParent parent child)

/-- Checks that the ends of a node are in order. -/
def Node.checkEnds (n : Node) : Except ShapeError Unit :=
  if n.span.stop < n.span.start then .error (.invertedRange n.type n.span)
  else if ¬ n.loc.start ≤ n.loc.stop then .error (.invertedLocation n.type n.loc)
  else .ok ()

/-- Checks what a node holds, given the length of its span. -/
def Node.checkContents (n : Node) (length : Nat) : Except ShapeError Unit :=
  if Text.size n.raw ≠ length then .error (.rawLengthMismatch n.type (Text.size n.raw) n.span)
  else if n.type.isText ≠ n.value.isSome then .error (.invalidValue n.type)
  else if !n.type.isParent && n.hasChildren then .error (.unexpectedChildren n.type)
  else checkChildren n.span none (n.children.map Node.span)

/-- Checks a node without its descendants. -/
def Node.check (n : Node) : Except ShapeError Unit := do
  n.checkEnds
  n.checkContents (n.span.stop - n.span.start)

/-- What is wrong with a node, without its descendants. -/
def Node.fault? (n : Node) : Option ShapeError :=
  match n.check with
  | .ok () => none
  | .error e => some e

/-- The visitor that stops at the first node with a fault. -/
def Visitor.faultFinder {ε : Type} (fault? : Node → Option ε) : Visitor (Option ε) :=
  .ofHooks
    (fun n s =>
      match fault? n with
      | none => (s, .go)
      | some e => (some e, .stop))
    (fun _ s => (s, .go))

/-- Checks a tree for nodes with a fault. A root that is no document is a fault as well. -/
def Node.validateBy {ε : Type} (fault? : Node → Option ε) (ofShape : ShapeError → ε) (root : Node) :
    Except ε Unit :=
  if root.type = .document then
    match ((Visitor.faultFinder fault?).walk root none).1 with
    | some e => .error e
    | none => .ok ()
  else .error (ofShape (.rootNotDocument root.type))

/-- Checks a tree. -/
def Node.validate (root : Node) : Except ShapeError Unit := root.validateBy Node.fault? id

/-- Whether a tree is well-shaped. -/
def Node.isWellShaped (root : Node) : Bool :=
  match root.validate with
  | .ok () => true
  | .error _ => false

end LocaleStrings
