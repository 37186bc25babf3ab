import LocaleStrings.Text.Basic

/-!
# Command line arguments

Arguments are taken one by one. A command comes first, options may stand before or behind it, and
behind `--` everything is a file. A value that follows its option as an argument of its own is put
in place only with the next option, or at the end: so a command is read before a value in front of
it is refused.

* `Flag`: the options, `Flag.ofShort?` and `Flag.ofLong?` find them by name;
* `Invocation`: what a command line asks for;
* `ArgState.step`: takes one argument;
* `readArgs`: the meaning of a command line, with `Refusal` for the ones that ask for nothing.
-/

namespace LocaleStrings.Command

/-! ## Options -/

/-- The options. -/
inductive Flag where
  | config
  | verbose
  | locale
  | resource
  | compact
  | version
  | help
deriving DecidableEq, Repr

namespace Flag

/-- Whether a value belongs to an option. -/
def takesValue : Flag → Bool
  | .config | .locale | .resource => true
  | .verbose | .compact | .version | .help => false

/-- The name of an option behind two dashes. -/
def long : Flag → String
  | .config => "config"
  | .verbose => "verbose"
  | .locale => "locale"
  | .resource => "resource"
  | .compact => "compact"
  | .version => "version"
  | .help => "help"

/-- The letter of an option behind one dash. -/
def short? : Flag → Option Char
  | .config => some 'c'
  | .verbose => some 'v'
  | .locale => some 'l'
  | .resource => some 'r'
  | .compact => none
  | .version => some 'V'
  | .help => some 'h'

end Flag

/-- How far the command line was read. -/
inductive Level where
  /-- No command yet. -/
  | root
  /-- Behind the command `parse`. -/
  | parse
  /-- Behind the command `extensions`. -/
  | extensions
  /-- Behind the command `help`. -/
  | help
  /-- Behind the command that help is asked for. -/
  | topic
deriving DecidableEq, Repr

/-- The options that may stand at a level. -/
def Level.flags : Level → List Flag
  | .root => [.config, .verbose, .version, .help]
  | .parse => [.config, .verbose, .locale, .resource, .compact, .help]
  | .extensions => [.config, .verbose, .help]
  | .help | .topic => []

/-- The names of the commands. -/
def commandNames : List Text := ["parse".toList, "extensions".toList, "help".toList]

/-- The option of a letter. -/
def Flag.ofShort? (level : Level) (c : Char) : Option Flag :=
  level.flags.find? fun f => f.short? == some c

/-- The option of a name. -/
def Flag.ofLong? (level : Level) (name : Text) : Option Flag :=
  level.flags.find? fun f => f.long.toList == name

/-! ## Meanings -/

/-- The commands. -/
inductive Task where
  /-- Prints the documents of files. -/
  | parse (files locales resources : List Text) (compact : Bool)
  /-- Prints the file extensions that are read. -/
  | extensions
deriving DecidableEq, Repr

/-- What a command line asks for. -/
structure Invocation where
  config : Option Text
  verbose : Bool
  task : Task
deriving DecidableEq, Repr

/-- Why a command line asks for no task. -/
inductive Refusal where
  /-- It is no use of the program. -/
  | usage
  /-- It asks for the version. -/
  | version
  /-- It asks for help. -/
  | help
deriving DecidableEq, Repr

/-! ## Reading -/

/-- The options and files at one level. -/
structure Given where
  config : Option Text := none
  verbose : Bool := false
  locales : List Text := []
  resources : List Text := []
  compact : Bool := false
  files : List Text := []

namespace Given

/-- Takes an option without value, at most once. -/
def setFlag (g : Given) : Flag → Except Refusal Given
  | .verbose => if g.verbose then .error .usage else .ok { g with verbose := true }
  | .compact => if g.compact then .error .usage else .ok { g with compact := true }
  | .version => .error .version
  | .help => .error .help
  | .config | .locale | .resource => .error .usage

/-- Takes an option with its value. A path is not empty and given at most once. -/
def setValue (g : Given) (value : Text) : Flag → Except Refusal Given
  | .config =>
    if g.config.isSome || value.isEmpty then .error .usage
    else .ok { g with config := some value }
  | .locale => .ok { g with locales := g.locales ++ [value] }
  | .resource => .ok { g with resources := g.resources ++ [value] }
  | .verbose | .compact | .version | .help => .error .usage

/-- Takes a file, whose path is not empty. -/
def addFile (g : Given) (path : Text) : Except Refusal Given :=
  if path.isEmpty then .error .usage else .ok { g with files := g.files ++ [path] }

end Given

/-- A command line that is being read. -/
structure ArgState where
  level : Level := .root
  /-- What stands before the command. -/
  before : Given := {}
  /-- An option before the command whose value is not put in place yet. -/
  heldBefore : Option (Flag × Text) := none
  /-- What stands behind the command, or before it as long as there is none. -/
  given : Given := {}
  /-- An option that waits for its value. -/
  pending : Option Flag := none
  /-- An option whose value is not put in place yet. -/
  held : Option (Flag × Text) := none
  /-- Whether everything from here on is a file. -/
  filesOnly : Bool := false

namespace ArgState

/-- Whether an argument is an option, and no value or file. -/
def looksLikeOption (a : Text) : Bool := a.head? == some '-' && 1 < a.length

/-- Puts a value in place, if there is one. -/
def place (g : Given) : Option (Flag × Text) → Except Refusal Given
  | none => .ok g
  | some (f, value) => g.setValue value f

/-- Puts the value that is held in place. -/
def settle (s : ArgState) : Except Refusal ArgState := do
  let given ← place s.given s.held
  return { s with given := given, held := none }

/-- Takes letters of options behind one dash. The letters behind an option with a value are its
value, without a leading `=`. -/
def shorts (s : ArgState) : Text → Except Refusal ArgState
  | [] => .ok s
  | c :: cs =>
    match Flag.ofShort? s.level c with
    | none => .error .usage
    | some f =>
      if f.takesValue then
        match cs with
        | [] => .ok { s with pending := some f }
        | '=' :: value => do
          let given ← s.given.setValue value f
          return { s with given := given }
        | value => do
          let given ← s.given.setValue value f
          return { s with given := given }
      else
        match s.given.setFlag f with
        | .error e => .error e
        | .ok given => shorts { s with given := given } cs

/-- Takes the name of an option behind two dashes, and a value behind `=`. -/
def longOption (s : ArgState) (a : Text) : Except Refusal ArgState :=
  let name := a.takeWhile (· != '=')
  match Flag.ofLong? s.level name, a.dropWhile (· != '=') with
  | none, _ => .error .usage
  | some f, [] =>
    if f.takesValue then .ok { s with pending := some f }
    else do
      let given ← s.given.setFlag f
      return { s with given := given }
  | some f, _ :: value =>
    if f.takesValue then do
      let given ← s.given.setValue value f
      return { s with given := given }
    else .error .usage

/-- The state behind the name of a command, with what stands before it. -/
def enter (s : ArgState) (level : Level) : ArgState :=
  { level := level, before := s.given, heldBefore := s.held }

/-- Takes the name of a command. -/
def command (s : ArgState) (name : Text) : Except Refusal ArgState :=
  if name = "parse".toList then .ok (s.enter .parse)
  else if name = "extensions".toList then .ok (s.enter .extensions)
  else if name = "help".toList then .ok (s.enter .help)
  else .error .usage

/-- Takes an argument that is no option. -/
def positional (s : ArgState) (a : Text) : Except Refusal ArgState :=
  match s.level with
  | .root => if s.filesOnly then .error .usage else s.command a
  | .parse => do
    let s ← s.settle
    let given ← s.given.addFile a
    return { s with given := given }
  | .extensions | .help | .topic => .error .usage

/-- Takes an argument that begins with a dash. -/
def option (s : ArgState) (a : Text) : Except Refusal ArgState := do
  let s ← s.settle
  match a with
  | '-' :: '-' :: name => s.longOption name
  | _ => s.shorts (a.drop 1)

/-- Takes one argument of a task. -/
def stepTask (s : ArgState) (a : Text) : Except Refusal ArgState :=
  if s.filesOnly then s.positional a
  else match s.pending with
    | some f =>
      if looksLikeOption a then .error .usage
      else .ok { s with held := some (f, a), pending := none }
    | none =>
      if a = "--".toList then .ok { s with filesOnly := true }
      else if looksLikeOption a then s.option a
      else s.positional a

/-- Takes one argument. Behind `help` only the name of one command may come. -/
def step (s : ArgState) (a : Text) : Except Refusal ArgState :=
  match s.level with
  | .help => if commandNames.contains a then .ok { s with level := .topic } else .error .usage
  | .topic => .error .usage
  | .root | .parse | .extensions => s.stepTask a

/-- What a task asks for whose arguments were read to their end. -/
def finishTask (s : ArgState) : Except Refusal Invocation := do
  if s.pending.isSome then throw .usage
  let given ← place s.given s.held
  let before ← place s.before s.heldBefore
  let config := given.config.or before.config
  let verbose := given.verbose || before.verbose
  match s.level with
  | .extensions => return ⟨config, verbose, .extensions⟩
  | .parse =>
    if given.files.isEmpty then throw .usage
    return ⟨config, verbose, .parse given.files given.locales given.resources given.compact⟩
  | .root | .help | .topic => throw .usage

/-- What a command line asks for that was read to its end. -/
def finish (s : ArgState) : Except Refusal Invocation :=
  match s.level with
  | .help | .topic => .error .help
  | .root | .parse | .extensions => s.finishTask

end ArgState

/-- The meaning of a command line. -/
def readArgs (args : List Text) : Except Refusal Invocation := do
  let s ← args.foldlM ArgState.step {}
  s.finish

end LocaleStrings.Command
