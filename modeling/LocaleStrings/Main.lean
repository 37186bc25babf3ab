import LocaleStrings.Command.Run

/-!
# The program

Reads the files and the standard input that the command line asks for, runs the command on them,
and writes its log and its output.
-/

namespace LocaleStrings.Command

/-- The text of bytes that must be UTF-8. -/
def decodeBytes (bytes : ByteArray) : Except ReadError Text :=
  match String.fromUTF8? bytes with
  | some s => .ok s.toList
  | none => .error .notUtf8

/-- Why a file cannot be read, by the code that the system gives. -/
def readErrorOf (e : IO.Error) (code : UInt32) : ReadError :=
  match code with
  | 20 => .notADirectory
  | 21 => .isADirectory
  | 36 => .nameTooLong
  | _ => .other (toString e)

/-- Why a file cannot be read. -/
def readError (e : IO.Error) : ReadError :=
  match e with
  | .noFileOrDirectory _ _ _ => .notFound
  | .inappropriateType _ code _ => readErrorOf e code
  | .invalidArgument _ code _ => readErrorOf e code
  | e => .other (toString e)

/-- Reads a file. -/
def readFileText (path : Text) : IO (Except ReadError Text) := do
  try
    let bytes ← IO.FS.readBinFile (String.ofList path)
    return decodeBytes bytes
  catch e => return .error (readError e)

/-- Reads a stream to its end. -/
partial def readToEnd (input : IO.FS.Stream) (before : ByteArray) : IO ByteArray := do
  let chunk ← input.read 65536
  if chunk.isEmpty then return before else readToEnd input (before ++ chunk)

/-- A log record as a line. -/
def recordLine (r : LogRecord) : String :=
  ": ".intercalate (s!"{r.level.name} {r.message}" :: r.causes)

/-- Runs a command line on the files it asks for. -/
def runProgram (args : List Text) : IO Outcome := do
  let files ← (requestedFiles args).mapM fun path => do
    let content ← readFileText path
    return (path, content)
  let stdin ←
    if requestsStdin args then do
      let input ← IO.getStdin
      let bytes ← readToEnd input ByteArray.empty
      pure (decodeBytes bytes)
    else pure (.ok [])
  let file (path : Text) : Except ReadError Text :=
    match files.find? fun f => f.1 == path with
    | some (_, content) => content
    | none => .error .notFound
  return run ⟨file, stdin⟩ args

end LocaleStrings.Command

/-- The program. -/
def main (args : List String) : IO UInt32 := do
  let outcome ← LocaleStrings.Command.runProgram (args.map (·.toList))
  for r in outcome.log do
    IO.eprintln (LocaleStrings.Command.recordLine r)
  IO.print (String.ofList outcome.stdout)
  return outcome.code.toUInt32
