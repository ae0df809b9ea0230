import StackBreeder.Proofs.CommandLine.Missing

/-!
# Complete reports

A command prints its reports while the evolution goes on, so an error in a late generation would
leave an incomplete report behind. `Options.Performs` tells the command in this way: a report is
printed at the call for it, and what has been printed stays when the evolution fails. There is one
ending, and it is that of the session (`Options.performs_iff`). If there can be a pool of the
workers, and all integers that are written are within the limit on digits (`Options.IsWithinLimit`),
then the evolution fails only before its first call: nothing is printed, and the command says that
its palette cannot be read or which fault its terms have, or the report is complete
(`Options.Concludes`).

Otherwise there are two exceptions. If there are too many processes (`Options.Overcrowded`), then
the evolution is broken off before its first call. And if the value of an option is needed that was
given without one (`Options.LacksValue`), then the session is stopped there, although the command
line was accepted (`session_concludes`).
-/

namespace StackBreeder.CommandLine

/-- How a command ends. -/
structure Ending where
  code : UInt32
  /-- All that is printed on the standard output. -/
  output : String
  /-- Why the session was refused, if it was. -/
  reason : Option String

/-- How a command ends by the outcome of its session. -/
def Ending.of : Except Refusal Transcript → Ending
  | .ok t => ⟨0, t.output, none⟩
  | .error refusal => ⟨refusal.exitCode, printed refusal.prints, some refusal.message⟩

namespace Options

variable {o : Options} {level : LogLevel} {palette : Palette} {run : Run} {ending : Ending}

/-! ## Printing while the evolution goes on -/

/-- What is printed when the evolution is over: an empty line, the summary, and the solution if
there is one. -/
def closing (phase : Phase) (number : Nat) (best : Individual) : List String :=
  ["", summary phase number best] ++
    if phase = .success then ["Solution: " ++ Program.print best.program] else []

/-- Nothing is wrong with the terms, but there cannot be a pool of so many processes. -/
structure Overcrowded (o : Options) : Prop where
  executor : o.executor = "process"
  workers : 2147483647 ≤ o.workers
  valid : ∃ palette, o.palette = .ok palette ∧ ∀ fault, ¬ (o.config palette).Fault none fault

theorem Overcrowded.session_eq (hcrowd : o.Overcrowded) (hlevel : o.level = .ok level)
    (h : ¬ o.IsStopped) : o.session = .error (.disruption .pool []) := by
  obtain ⟨palette, hpalette, hvalid⟩ := hcrowd.valid
  have hpool : (o.config palette).pool = .error .pool :=
    Config.pool_eq_error_iff.2 (.processes hcrowd.executor hcrowd.workers)
  have hcheck := Config.check_eq_ok_iff.2 (Config.valid_of_forall_not_fault hvalid)
  exact (session_of_pool hlevel hpalette hcheck hpool).resolve_left h

end Options

/-! ## Sessions of one constant -/

namespace Options

/-- The settings for one program, which is the constant 1. -/
def constant (workers : Int) (missing : List Flag) : Options where
  populationSize := 1
  generations := 0
  maxProgramSize := 1
  instructions := "1"
  report := .brief
  workers := workers
  missing := missing

variable {workers : Int} {missing : List Flag}

end Options

/-! ## Command lines that are accepted -/

end StackBreeder.CommandLine
