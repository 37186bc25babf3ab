import LocaleStrings.Json.Write
import LocaleStrings.Source.Position

/-!
# Text trees

A document holds paragraphs, a paragraph holds strings. Every node carries the text it covers and
the place of that text; nothing in the type ties the two together.

* `NodeType`, `Node`: the nodes of a tree;
* `Node.document`, `Node.paragraph`, `Node.str`: nodes of each type;
* `Node.toData`: a node as JSON data.
-/

namespace LocaleStrings

/-- The types of nodes. -/
inductive NodeType where
  /-- The root of a tree. -/
  | document
  /-- The container of one string. -/
  | paragraph
  /-- A string. -/
  | str
deriving DecidableEq, Repr

namespace NodeType

/-- The name of a type. -/
def name : NodeType → String
  | .document => "Document"
  | .paragraph => "Paragraph"
  | .str => "Str"

/-- The type of a name. -/
def ofName? (name : String) : Option NodeType :=
  [document, paragraph, str].find? (·.name == name)

/-- Whether nodes of the type have children. -/
def isParent : NodeType → Bool
  | .document | .paragraph => true
  | .str => false

/-- Whether nodes of the type have a value. -/
def isText : NodeType → Bool
  | .str => true
  | .document | .paragraph => false

end NodeType

/-- A node of a text tree. -/
inductive Node where
  | mk (type : NodeType) (raw : Text) (span : Span) (loc : Location) (children : List Node)
      (value : Option Text)
deriving Repr

namespace Node

/-- The type of a node. -/
def type : Node → NodeType
  | .mk type _ _ _ _ _ => type

/-- The text that a node covers. -/
def raw : Node → Text
  | .mk _ raw _ _ _ _ => raw

/-- The bytes that a node covers. -/
def span : Node → Span
  | .mk _ _ span _ _ _ => span

/-- The positions between which a node stands. -/
def loc : Node → Location
  | .mk _ _ _ loc _ _ => loc

/-- The children of a node. -/
def children : Node → List Node
  | .mk _ _ _ _ children _ => children

/-- The value of a node, if it has one. -/
def value : Node → Option Text
  | .mk _ _ _ _ _ value => value

/-- A document over the given text. -/
def document (raw : Text) (span : Span) (loc : Location) (children : List Node) : Node :=
  .mk .document raw span loc children none

/-- A paragraph around the given nodes. -/
def paragraph (raw : Text) (span : Span) (loc : Location) (children : List Node) : Node :=
  .mk .paragraph raw span loc children none

/-- A string with the given value. -/
def str (raw : Text) (span : Span) (loc : Location) (value : Text) : Node :=
  .mk .str raw span loc [] (some value)

/-- Whether a node has children. -/
def hasChildren (n : Node) : Bool := !n.children.isEmpty

/-- Whether a node has a value. -/
def isText (n : Node) : Bool := n.value.isSome

end Node

/-! ## Trees as data -/

open Json (Data)

/-- A position as data. -/
def Position.toData (p : Position) : Data :=
  .record [("line", .integer p.line), ("column", .integer p.column)]

/-- A location as data. -/
def Location.toData (l : Location) : Data :=
  .record [("start", l.start.toData), ("end", l.stop.toData)]

/-- A span as the list of its ends. -/
def Span.toData (s : Span) : Data := .array [.integer s.start, .integer s.stop]

mutual

/-- A node as data. Children are left out if there are none and the type has none; a value is left
out if there is none. -/
def Node.toData : Node → Data
  | .mk type raw span loc children value =>
    .record
      ([("type", .string type.name.toList), ("raw", .string raw), ("range", span.toData),
          ("loc", loc.toData)]
        ++ (if type.isParent || !children.isEmpty then [("children", .array (dataOfNodes children))]
            else [])
        ++ (match value with
            | some v => [("value", .string v)]
            | none => []))

/-- Nodes as data. -/
def dataOfNodes : List Node → List Data
  | [] => []
  | n :: ns => n.toData :: dataOfNodes ns

end

/-- The compact JSON text of a tree. -/
def Node.json (n : Node) : Text := n.toData.compact

end LocaleStrings
