import LocaleStrings.Document.Parser
import LocaleStrings.Glob.Matcher
import LocaleStrings.Options.Basic

/-!
# Processors

A processor turns the text of a file into a document. The JSON processor reads every file as a
locale text. The component processor reads the files that match a resource pattern as locale texts,
and searches all others for an `i18n` block.

* `ConfigError`, `ProcessorError`: why a processor cannot be made, or cannot read a text;
* `Processor`, `Processor.ofOptions`: the processors, and the one that options ask for;
* `Processor.preProcess`: the document of a text, with `Processor.log` beside it;
* `Processor.reportedPath`: the path that results are reported under.
-/

namespace LocaleStrings

/-! ## Errors -/

/-- Why a file cannot be read. -/
inductive ReadError where
  | notFound
  | notADirectory
  | isADirectory
  | nameTooLong
  | notUtf8
  | other (text : String)
deriving DecidableEq, Repr

/-- The wording of an error. -/
def ReadError.message : ReadError → String
  | .notFound => "No such file or directory (os error 2)"
  | .notADirectory => "Not a directory (os error 20)"
  | .isADirectory => "Is a directory (os error 21)"
  | .nameTooLong => "File name too long (os error 36)"
  | .notUtf8 => "stream did not contain valid UTF-8"
  | .other text => text

/-- Why a configuration cannot be used. -/
inductive ConfigError where
  /-- The option file cannot be read. -/
  | unreadable (path : Text) (error : ReadError)
  /-- The option text cannot be used. -/
  | options (error : Options.Error)
  /-- The resource patterns make no matcher. -/
  | glob (error : Glob.Matcher.Error)
  /-- Any other reason. -/
  | other (text : String)

/-- The wording of an error. -/
def ConfigError.message : ConfigError → String
  | .unreadable path error => s!"Failed to read {String.ofList path}: {error.message}"
  | .options error => error.message
  | .glob error => error.message
  | .other text => text

/-- Why a processor fails. -/
inductive ProcessorError where
  | config (error : ConfigError)
  | parse (error : ParseError)
  | io (error : ReadError)

/-- The wording of an error. -/
def ProcessorError.message : ProcessorError → String
  | .config error => s!"Configuration error: {error.message}"
  | .parse error => s!"Parse error: {error.message}"
  | .io error => s!"I/O error: {error.message}"

/-- The wording of the error behind an error, if there is one. -/
def ProcessorError.cause? : ProcessorError → Option String
  | .config _ => none
  | .parse error => some error.message
  | .io error => some error.message

/-! ## Processors -/

/-- A processor of files. -/
inductive Processor where
  /-- Reads JSON locale files. -/
  | json
  /-- Reads components, and the locale files among its resources. -/
  | component (filter : Option LocaleFilter) (resources : Glob.Matcher)

namespace Processor

/-- The component processor that options ask for. -/
def ofOptions (o : Options) : Except ConfigError Processor :=
  match Glob.Matcher.ofPatterns o.resources with
  | .ok resources => .ok (.component o.filter resources)
  | .error e => .error (.glob e)

/-- The file extensions that a processor reads, with dot. -/
def extensions : Processor → List String
  | .json => [".json"]
  | .component _ _ => [".vue", ".json"]

/-- Whether a file is a resource of a processor. -/
def isResource (p : Processor) (path : Text) : Bool :=
  match p with
  | .json => false
  | .component _ resources => resources.isMatch path

/-- Whether a text is a resource; a text without path is none. -/
def readsAsResource (p : Processor) (path : Option Text) : Bool :=
  match path with
  | some path => p.isResource path
  | none => false

/-- The parser with which a processor reads a text. -/
def parserFor (p : Processor) (path : Option Text) : Parser :=
  match p with
  | .json => .json
  | .component filter _ => if p.readsAsResource path then .json else .component filter

/-- The document of a text. -/
def preProcess (p : Processor) (text : Text) (path : Option Text) :
    Except Document.Failure Node :=
  (p.parserFor path).parse text

/-- The path that results for a text are reported under. -/
def reportedPath (path : Option Text) : Text := path.getD "<text>".toList

/-- The messages about a text, as they are, with the path they are reported under. -/
def postProcess {α : Type} (messages : List α) (path : Option Text) : List α × Text :=
  (messages, reportedPath path)

/-- The record of how a text is read. -/
def openingLog (p : Processor) (path : Option Text) : List LogRecord :=
  let shown := String.ofList (reportedPath path)
  match p with
  | .json => []
  | .component _ _ =>
    if p.readsAsResource path then [.info s!"Reading {shown} as a JSON locale resource"]
    else [.debug s!"Searching {shown} for an <i18n> block"]

/-- The records that go with the document of a text. -/
def log (p : Processor) (text : Text) (path : Option Text) : List LogRecord :=
  p.openingLog path ++ (p.parserFor path).log text

end Processor

end LocaleStrings
