import LocaleStrings.Command.Args
import LocaleStrings.Command.Path
import LocaleStrings.Processor

/-!
# Running a command

A run reads the option file, makes the processors and then works through the files in order. The
first failure ends it, and nothing is printed then.

* `Inputs`: the files and the standard input that a run can read;
* `Outcome`: exit code, printed text and log;
* `parseFiles`: the results of files in order, with their records;
* `run`: the outcome of a command line.
-/

namespace LocaleStrings.Command

open Json (Data)

/-- What a run can read. -/
structure Inputs where
  /-- The text of the file at a path. -/
  file : Text → Except ReadError Text
  /-- The text of the standard input. -/
  stdin : Except ReadError Text

/-- What a run leaves behind. -/
structure Outcome where
  code : Nat
  stdout : Text
  log : List LogRecord

/-- The record of a failed run. -/
def errorRecord (message : String) (causes : List String) : LogRecord := ⟨.error, message, causes⟩

/-- The record of a processor error behind a message. -/
def ofProcessorError (message : String) (e : ProcessorError) : LogRecord :=
  errorRecord message (e.message :: e.cause?.toList)

/-! ## Files -/

/-- The argument that stands for the standard input. -/
def stdinPath : Text := ['-']

/-- The path of a file argument; the standard input has none. -/
def pathOf (file : Text) : Option Text := if file = stdinPath then none else some file

/-- Reads a file argument; gives what is left of the standard input. -/
def readSource (inputs : Inputs) (file : Text) : Except ReadError Text × Inputs :=
  if file = stdinPath then (inputs.stdin, { inputs with stdin := .ok [] })
  else (inputs.file file, inputs)

/-- The processor for a file argument, if its type is known. JSON files that are no resources go
to the JSON processor. -/
def processorFor (component : Processor) (path : Option Text) : Option Processor :=
  match path with
  | none => some component
  | some path =>
    if Path.hasExtension path "json" && !component.isResource path then some .json
    else if Path.hasExtension path "json" || Path.hasExtension path "vue" then some component
    else none

/-- The result of a text, with its records. -/
def parseText (p : Processor) (text : Text) (path : Option Text) :
    List LogRecord × Except LogRecord Data :=
  let shown := String.ofList (path.getD "<stdin>".toList)
  match p.preProcess text path with
  | .ok root =>
    (p.log text path ++ [.debug s!"Extracted {root.children.length} string(s)"],
      .ok (.record [("filePath", .string (Processor.reportedPath path)), ("ast", root.toData)]))
  | .error (.parse e) =>
    (p.log text path, .error (ofProcessorError s!"Failed to parse {shown}" (.parse e)))
  | .error (.overflow o) => (p.log text path, .error (errorRecord o.message []))

/-- The result of a file argument that was read, with its records. -/
def parseFile (component : Processor) (file : Text) (source : Except ReadError Text) :
    List LogRecord × Except LogRecord Data :=
  match source with
  | .error e => ([], .error (ofProcessorError s!"Failed to read {String.ofList file}" (.io e)))
  | .ok text =>
    match processorFor component (pathOf file) with
    | some p => parseText p text (pathOf file)
    | none => ([], .error (errorRecord
        s!"Unsupported file type: {String.ofList file} (expected .vue or .json)" []))

/-- The results of file arguments in order, with their records, up to the first failure. -/
def parseFiles (component : Processor) (inputs : Inputs) :
    List Text → List LogRecord × Except LogRecord (List Data)
  | [] => ([], .ok [])
  | file :: files =>
    let (source, inputs) := readSource inputs file
    match parseFile component file source with
    | (log, .error e) => (log, .error e)
    | (log, .ok d) =>
      match parseFiles component inputs files with
      | (others, .error e) => (log ++ others, .error e)
      | (others, .ok ds) => (log ++ others, .ok (d :: ds))

/-! ## Tasks -/

/-- The options of the option file, if there is one. -/
def loadOptions (inputs : Inputs) (config : Option Text) : Except ConfigError Options :=
  match config with
  | none => .ok {}
  | some path =>
    match inputs.file path with
    | .error e => .error (.unreadable path e)
    | .ok text =>
      match Options.read text with
      | .ok o => .ok o
      | .error e => .error (.options e)

/-- Options with the ones of the command line: locales replace the ones of the option file,
resources are added to them. -/
def mergeOptions (o : Options) (locales resources : List Text) : Options :=
  ⟨if locales.isEmpty then o.locales else some locales, o.resources ++ resources⟩

/-- A single result stands alone, several make a list. -/
def combine : List Data → Data
  | [d] => d
  | ds => .array ds

/-- The printed form of a result, with sorted members. -/
def render (compact : Bool) (d : Data) : Text :=
  (if compact then d.sorted.compact else d.sorted.pretty) ++ ['\n']

/-- A failed run. -/
def fail (log : List LogRecord) (e : LogRecord) : Outcome := ⟨2, [], log ++ [e]⟩

/-- A run that fails for its configuration. -/
def failConfig (e : ConfigError) : Outcome :=
  fail [] (errorRecord (ProcessorError.config e).message [])

/-- Prints the documents of files. -/
def runParse (inputs : Inputs) (o : Options) (files : List Text) (compact : Bool) : Outcome :=
  match Processor.ofOptions o with
  | .error e => failConfig e
  | .ok component =>
    match parseFiles component inputs files with
    | (log, .error e) => fail log e
    | (log, .ok ds) =>
      ⟨0, render compact (combine ds), log ++ [.info s!"Parsed {ds.length} file(s)"]⟩

/-- Prints the file extensions that are read. -/
def runExtensions (o : Options) : Outcome :=
  match Processor.ofOptions o with
  | .error e => failConfig e
  | .ok component =>
    let all := (component.extensions ++ Processor.json.extensions).eraseDups
    ⟨0, all.flatMap fun e => e.toList ++ ['\n'], []⟩

/-- Carries out a task. -/
def runTask (inputs : Inputs) (o : Options) : Task → Outcome
  | .parse files locales resources compact =>
    runParse inputs (mergeOptions o locales resources) files compact
  | .extensions => runExtensions o

/-- Carries out what a command line asks for; details are logged only on demand, and nothing in the
log steers a terminal. -/
def runInvocation (inputs : Inputs) (i : Invocation) : Outcome :=
  let outcome := match loadOptions inputs i.config with
    | .error e => failConfig e
    | .ok o => runTask inputs o i.task
  { outcome with log := (outcome.log.filter (·.visible i.verbose)).map (·.disarmed) }

/-- The text that answers a question for the version. -/
def versionText : Text := "yklint 0.1.0\n".toList

/-- The outcome of a command line. -/
def run (inputs : Inputs) (args : List Text) : Outcome :=
  match readArgs args with
  | .ok i => runInvocation inputs i
  | .error .usage => ⟨2, [], []⟩
  | .error .version => ⟨0, versionText, []⟩
  | .error .help => ⟨0, [], []⟩

/-- The files that a command line asks for. -/
def requestedFiles (args : List Text) : List Text :=
  match readArgs args with
  | .error _ => []
  | .ok i =>
    i.config.toList ++ (match i.task with
      | .parse files _ _ _ => files.filter (· != stdinPath)
      | .extensions => [])

/-- Whether a command line asks for the standard input. -/
def requestsStdin (args : List Text) : Bool :=
  match readArgs args with
  | .ok ⟨_, _, .parse files _ _ _⟩ => files.contains stdinPath
  | _ => false

end LocaleStrings.Command
