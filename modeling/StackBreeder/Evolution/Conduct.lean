import StackBreeder.Evolution.Log

/-!
# Evolutions that are carried out

An evolution that is carried out needs more than its terms. With more than one worker it makes a
pool of them before its first generation (`Config.pool`). The evaluator must not fail on a program.
And every generation is logged before it is reported, whether or not its entry is kept, so that the
numbers of the entry must be such as can be written (`Report.isWritable`).

`conduct` says what becomes of an evolution: which generations are reported, and then its run, or
why it is broken off.
-/

namespace StackBreeder

/-- Why an evolution whose terms are accepted is broken off. -/
inductive Disruption where
  /-- There cannot be a pool of so many processes. -/
  | pool
  /-- A number that is to be logged has too many digits. -/
  | digits
  /-- The evaluator fails on a program. -/
  | evaluation
  deriving DecidableEq, Repr

/-- The text about an evolution that is broken off. The one about digits is as it is shown; the
other two only name what is wrong, since what is shown then is up to the environment and to the
evaluator. -/
def Disruption.message : Disruption → String
  | .pool => "too many processes"
  | .digits =>
    "Exceeds the limit (4300 digits) for integer string conversion; use " ++
      "sys.set_int_max_str_digits() to increase the limit"
  | .evaluation => "evaluation failed"

/-- Why there is no run of an evolution. -/
inductive Failure where
  | evolution (e : EvolutionError)
  | disruption (d : Disruption)
  deriving DecidableEq, Repr

/-- The text of a failure. -/
def Failure.message : Failure → String
  | .evolution e => e.message
  | .disruption d => d.message

/-- Workers of one kind. -/
structure Pool where
  /-- The kind of the workers, `thread` or `process`. -/
  executor : String
  size : Int
  deriving DecidableEq, Repr

/-- The largest number of processes in a pool. Their queue has one place more than there are
processes, and a semaphore counts the places in a signed integer of 32 bits. Whether a machine can
run so many is left out. -/
def Pool.maxProcesses : Int := 2147483646

/-- The pool for an evolution: none if it is its own only worker. A pool is logged with its size. -/
def Config.pool (config : Config) : Except Disruption (Option Pool) :=
  if config.workers ≤ 1 then .ok none
  else if config.executor = "process" ∧ Pool.maxProcesses < config.workers then .error .pool
  else if Text.isWritable config.workers then .ok (some ⟨config.executor, config.workers⟩)
  else .error .digits

/-- Whether the numbers that are logged of a generation can be written. -/
def Report.isWritable (r : Report) : Bool :=
  Text.isWritable r.generation && Text.isWritable r.bestTotal && Text.isWritable r.meanTotal

/-- What keeps a generation from being reported: first its evaluation, by an evaluator that fails on
some programs, and then its entry in the log. -/
def Generation.disruption? (fails : Program → Bool) (g : Generation) : Option Disruption :=
  if g.population.any fun i => fails i.program then some .evaluation
  else if g.report.isWritable then none
  else some .digits

/-- What becomes of an evolution. -/
structure Conduct where
  /-- The generations that are reported. -/
  reported : List Generation
  result : Except Failure Run

/-- What becomes of a run whose generations are logged and reported one after the other. The numbers
of the last entry of its log are those of the entry for its last generation. -/
def Run.conduct (fails : Program → Bool) (run : Run) : Conduct where
  reported := run.generations.takeWhile fun g => (g.disruption? fails).isNone
  result :=
    match run.generations.findSome? (·.disruption? fails) with
    | some d => .error (.disruption d)
    | none => .ok run

/-- Carries out an evolution. The evaluator fails on the programs that satisfy a test, so that what
it says about them does not matter. -/
def conduct (fails : Program → Bool) (config : Config) (evaluator : Evaluator)
    (given : Option (List Program)) : Conduct :=
  match config.check given, config.pool with
  | .error e, _ => ⟨[], .error (.evolution (.config e))⟩
  | .ok (), .error d => ⟨[], .error (.disruption d)⟩
  | .ok (), .ok _ =>
    match evolve config evaluator given with
    | .error e => ⟨[], .error (.evolution e)⟩
    | .ok run => run.conduct fails

end StackBreeder
