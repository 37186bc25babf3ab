import LocaleStrings.Document.Assemble
import LocaleStrings.Document.Log

/-!
# Parsers of source files

* `Parser`: the parser of JSON locale files, which keeps every locale, and the one of components,
  which reads the first `i18n` block and may have a filter;
* `Parser.parseWith`, `Parser.parse`: the document of a source;
* `Parser.log`: the records that go with it.
-/

namespace LocaleStrings

/-- A parser of source files. -/
inductive Parser where
  /-- Reads a JSON locale file. -/
  | json
  /-- Reads the first `i18n` block of a component. -/
  | component (filter : Option LocaleFilter)
deriving DecidableEq, Repr

namespace Parser

/-- The name of a parser. -/
def name : Parser → String
  | .json => "json"
  | .component _ => "vue-i18n"

/-- The file extensions that a parser reads, without dot. -/
def extensions : Parser → List String
  | .json => ["json"]
  | .component _ => ["vue"]

/-- Whether a parser reads files with an extension, in any case. -/
def canParse (p : Parser) (extension : Text) : Bool :=
  p.extensions.any fun e => Ascii.sameIgnoringCase e.toList extension

/-- The filter of a parser. -/
def filter : Parser → Option LocaleFilter
  | .json => none
  | .component filter => filter

/-- The document of a source. -/
def parseWith {m : Type → Type} [Monad m] (r : Reading m) (p : Parser) (source : Text) :
    m (Except Document.Failure Node) :=
  match p with
  | .json => Document.assembleWith r source .plain none
  | .component filter =>
    match Component.i18nBlock? source with
    | none => return .ok Document.empty
    | some b => Document.assembleWith r source (.block b) filter

/-- The document of a source, as the check and the reader of this library read it. -/
def parse (p : Parser) (source : Text) : Except Document.Failure Node :=
  (p.parseWith .usual source).run

theorem parse_json (source : Text) :
    Parser.json.parse source = Document.assemble source .plain none := rfl

theorem parse_component (filter : Option LocaleFilter) (source : Text) :
    (Parser.component filter).parse source =
      match Component.i18nBlock? source with
      | none => .ok Document.empty
      | some b => Document.assemble source (.block b) filter := by
  unfold parse parseWith
  cases Component.i18nBlock? source <;> rfl

/-- The records of choosing the entries of a locale text. -/
def pickLog (text : Text) (filter : Option LocaleFilter) : List LogRecord :=
  match Locale.entries text, Locale.pick text filter with
  | .ok all, .ok kept => [.debug s!"Picked {kept.length} of {all.length} locale entries"]
  | _, _ => []

/-- The warnings about the `i18n` blocks of a component. -/
def blockWarnings (b : Component.Block) (others : List Component.Block) : List LogRecord :=
  (if others.isEmpty then []
    else [.warn s!"Found {others.length} extra <i18n> blocks; only the first is used"])
  ++ (match b.lang? with
    | some lang =>
      if Ascii.sameIgnoringCase lang "json".toList then []
      else [.warn s!"<i18n lang=\"{String.ofList lang}\"> is read as JSON"]
    | none => [])

/-- The records that go with the parsing of a source. -/
def log (p : Parser) (source : Text) : List LogRecord :=
  match p with
  | .json => pickLog source none
  | .component filter =>
    match Component.i18nBlocks source with
    | [] => [.debug "No <i18n> block found"]
    | b :: others =>
      blockWarnings b others
        ++ .debug s!"Found <i18n> block at {b.start}..{b.stop} ({Text.size b.content} bytes)"
        :: pickLog b.content filter

end Parser

end LocaleStrings
