import LocaleStrings.Component.Block
import LocaleStrings.Document.Lift
import LocaleStrings.Locale.Entry

/-!
# Documents

A document covers a whole source text. Its paragraphs are the strings of the locales that are
kept, in the order of the source.

* `SourceKind`: whether the locale text is the whole source or a block of it;
* `Failure`: why there is no document;
* `assembleWith`, `assemble`: the document of a source, `empty` the one of a source without locale
  text.
-/

namespace LocaleStrings.Document

/-- Where the locale text of a source is. -/
inductive SourceKind where
  /-- The source is the locale text. -/
  | plain
  /-- The locale text is the content of a block. -/
  | block (b : Component.Block)

/-- Why there is no document. -/
inductive Failure where
  /-- The locale text cannot be used. -/
  | parse (error : ParseError)
  /-- A place is too large for a 32-bit count. -/
  | overflow (overflow : Overflow)
deriving DecidableEq, Repr

/-- Arithmetic inside the making of a document. -/
def Failure.lift {α : Type} : Except Overflow α → Except Failure α
  | .ok a => .ok a
  | .error o => .error (.overflow o)

/-- The error of a region as a failure of the whole text. -/
def Failure.ofParseError (anchor : Anchor) (e : ParseError) : Failure :=
  match e.anchored anchor with
  | .ok e => .parse e
  | .error o => .overflow o

section Reading

variable {m : Type → Type} [Monad m]

/-- The locale text of a source, and where it starts. -/
def SourceKind.regionBy (f : Narrowing m) (kind : SourceKind) (source : Text) : m (Text × Anchor) :=
  match kind with
  | .plain => return (source, .origin)
  | .block b => do
    let anchor ← Anchor.ofOffsetBy f source b.start
    return (b.content, anchor)

/-- The paragraphs of literals, in order. -/
def liftAllBy (f : Narrowing m) (anchor : Anchor) (region : Text) :
    List Json.StringLiteral → m (Except Overflow (List Node))
  | [] => return .ok []
  | s :: ss => do
    let first ← liftBy f s anchor region
    let others ← liftAllBy f anchor region ss
    return do
      let n ← first
      let ns ← others
      return n :: ns

/-- The document of a source whose locale text `region` was read with the outcome `picked`. -/
def ofEntriesBy (f : Narrowing m) (source region : Text) (anchor : Anchor)
    (picked : Except ParseError (List Locale.Entry)) : m (Except Failure Node) :=
  match picked with
  | .error e => return .error (.ofParseError anchor e)
  | .ok kept => do
    let lifted ← liftAllBy f anchor region (Locale.literals kept)
    let span ← Span.ofOffsetsBy f 0 (Text.size source)
    let loc ← locateSpanBy f source span
    return do
      let paragraphs ← Failure.lift lifted
      return .document source span loc paragraphs

/-- The document of a source. -/
def assembleWith (r : Reading m) (source : Text) (kind : SourceKind)
    (filter : Option LocaleFilter) : m (Except Failure Node) := do
  let (region, anchor) ← kind.regionBy r.narrow source
  let picked ← Locale.pickWith r region filter
  ofEntriesBy r.narrow source region anchor picked

end Reading

/-- The locale text of a source, and where it starts, in counts of 32 bits. -/
def SourceKind.region (kind : SourceKind) (source : Text) : Text × Anchor :=
  (kind.regionBy .truncating source).run

/-- The paragraphs of literals, in order, in counts of 32 bits. -/
def liftAll (anchor : Anchor) (region : Text) (ss : List Json.StringLiteral) :
    Except Overflow (List Node) :=
  (liftAllBy .truncating anchor region ss).run

theorem liftAll_cons (anchor : Anchor) (region : Text) (s : Json.StringLiteral)
    (ss : List Json.StringLiteral) :
    liftAll anchor region (s :: ss) = do
      let n ← lift s anchor region
      let ns ← liftAll anchor region ss
      return n :: ns := rfl

/-- The document of a source whose locale text `region` was read with the outcome `picked`, in
counts of 32 bits. -/
def ofEntries (source region : Text) (anchor : Anchor)
    (picked : Except ParseError (List Locale.Entry)) : Except Failure Node :=
  (ofEntriesBy .truncating source region anchor picked).run

theorem ofEntries_error (source region : Text) (anchor : Anchor) (e : ParseError) :
    ofEntries source region anchor (.error e) = .error (.ofParseError anchor e) := rfl

theorem ofEntries_ok (source region : Text) (anchor : Anchor) (kept : List Locale.Entry) :
    ofEntries source region anchor (.ok kept) = do
      let paragraphs ← Failure.lift (liftAll anchor region (Locale.literals kept))
      let span := Span.ofOffsets 0 (Text.size source)
      return .document source span (locateSpan source span) paragraphs := rfl

/-- The document of a source. -/
def assemble (source : Text) (kind : SourceKind) (filter : Option LocaleFilter) :
    Except Failure Node :=
  (assembleWith .usual source kind filter).run

theorem assemble_eq (source : Text) (kind : SourceKind) (filter : Option LocaleFilter) :
    assemble source kind filter
      = ofEntries source (kind.region source).1 (kind.region source).2
          (Locale.pick (kind.region source).1 filter) := rfl

/-- The document of a source without locale text. -/
def empty : Node := .document [] ⟨0, 0⟩ (.point .first) []

end LocaleStrings.Document
