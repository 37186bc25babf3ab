import LocaleStrings.Text.Basic

/-!
# Log records

* `LogLevel`, `LogRecord`: what a run reports beside its result;
* `LogRecord.visible`: which records are shown when details are not asked for;
* `LogRecord.disarmed`: a record without characters that could steer a terminal.
-/

namespace LocaleStrings

/-- How much a record matters. -/
inductive LogLevel where
  | debug
  | info
  | warn
  | error
deriving DecidableEq, Repr

/-- The name of a level. -/
def LogLevel.name : LogLevel → String
  | .debug => "DEBUG"
  | .info => "INFO"
  | .warn => "WARN"
  | .error => "ERROR"

/-- A record of a run. -/
structure LogRecord where
  level : LogLevel
  message : String
  /-- The causes of an error, outermost first. -/
  causes : List String
deriving DecidableEq, Repr

namespace LogRecord

/-- A detail. -/
def debug (message : String) : LogRecord := ⟨.debug, message, []⟩

/-- A notice. -/
def info (message : String) : LogRecord := ⟨.info, message, []⟩

/-- A warning. -/
def warn (message : String) : LogRecord := ⟨.warn, message, []⟩

/-- Whether a record is shown. -/
def visible (verbose : Bool) (r : LogRecord) : Bool := verbose || r.level != .debug

/-! ## Terminals -/

/-- The characters of one byte that can steer a terminal: bell, backspace, form feed, escape and
delete. -/
def steering : Text := ['\x07', '\x08', '\x0c', '\x1b', '\x7f']

/-- Whether a character is one of the control characters behind the one-byte ones. -/
def isUpperControl (c : Char) : Bool := 0x80 ≤ c.toNat && c.toNat ≤ 0x9F

/-- A character in a log: the ones that can steer a terminal are written by their code. -/
def disarm (c : Char) : Text :=
  let code := Nat.toDigits 16 c.toNat
  if steering.contains c then '\\' :: 'x' :: (List.replicate (2 - code.length) '0' ++ code)
  else if isUpperControl c then '\\' :: 'u' :: '\x7b' :: (code ++ ['\x7d'])
  else [c]

/-- A message in a log. -/
def disarmText (message : String) : String := String.ofList (message.toList.flatMap disarm)

/-- A record as it is written. -/
def disarmed (r : LogRecord) : LogRecord :=
  ⟨r.level, disarmText r.message, r.causes.map disarmText⟩

end LogRecord

end LocaleStrings
