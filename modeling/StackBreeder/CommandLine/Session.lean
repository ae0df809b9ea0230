import StackBreeder.CommandLine.Options
import StackBreeder.Evolution.Conduct
import StackBreeder.Evolution.Presentation
import StackBreeder.Program.Reading
import StackBreeder.Regression.Cubic
import StackBreeder.Text.Capital

/-!
# Sessions

A session carries out an evolution of programs for the cubic problem on the terms of a command line.
It prints a report for each generation, an empty line, the summary, and the solution if one was
found. If the palette cannot be read or the terms cannot be used, it prints nothing and says why; if
the evolution is broken off, it has printed the reports that were made by then.

An option that was given without a value is a fault only when its value is needed. Values are needed
in a fixed order: those of `needed` before there is a pool of workers, then the fuel, and the
penalty when a program leaves a case without an answer. An error of the terms is found when the
value it is about is needed (`Flag.ofConfigError`), so that the first of the two faults is reported.
-/

namespace StackBreeder.CommandLine

/-- Why a session ends before its evolution. -/
inductive Refusal where
  /-- The command line does not follow the rules. -/
  | misuse
  /-- The log level, in capital letters, is none. -/
  | logLevel (name : String)
  /-- The value of an option is needed, and the option was given without one. -/
  | missing (f : Flag)
  /-- The palette cannot be read. -/
  | instructions (e : ReadError)
  /-- The evolution cannot run on the terms. -/
  | configuration (e : EvolutionError)
  /-- The evolution is broken off after these texts have been printed. -/
  | disruption (d : Disruption) (prints : List String)
  deriving DecidableEq, Repr

/-- The text about an option without a value. -/
def Flag.missingMessage : Flag → String
  | .logLevel => "'list' object has no attribute 'upper'"
  | .populationSize | .workers => "'<=' not supported between instances of 'list' and 'int'"
  | .generations | .maxProgramSize | .tournamentSize =>
    "'<' not supported between instances of 'list' and 'int'"
  | .seed =>
    "The only supported seed types are: None,\nint, float, str, bytes, and bytearray."
  | .fuel => "'>=' not supported between instances of 'int' and 'list'"
  | .penalty => "unsupported operand type(s) for +: 'int' and 'list'"
  | f => f.name ++ " needs a value"

/-- The text of a refusal. -/
def Refusal.message : Refusal → String
  | .misuse => "usage error"
  | .logLevel name => "Level '" ++ name ++ "' does not exist"
  | .missing f => f.missingMessage
  | .instructions e => "invalid --instructions: " ++ e.message
  | .configuration e => "invalid configuration: " ++ e.message
  | .disruption .digits _ => "invalid configuration: " ++ Disruption.message .digits
  | .disruption d _ => d.message

/-- The exit code of a command whose session is refused. -/
def Refusal.exitCode : Refusal → UInt32
  | .misuse => 2
  | _ => 1

/-- What has been printed when a session is refused. -/
def Refusal.prints : Refusal → List String
  | .disruption _ prints => prints
  | _ => []

/-- Texts as they are printed, each on lines of its own. -/
def printed (texts : List String) : String := String.join (texts.map (· ++ "\n"))

/-- What a session prints, and what it logs at its level. -/
structure Transcript where
  prints : List String
  log : List LogEntry
  deriving DecidableEq, Repr

/-- All that is printed. -/
def Transcript.output (t : Transcript) : String := printed t.prints

/-- The options whose values an evolution needs before its pool of workers, in the order in which it
needs them. -/
def needed : List Flag :=
  [.populationSize, .generations, .maxProgramSize, .tournamentSize, .executor, .instructions, .seed,
   .workers]

/-- The option that an error of the terms is about. -/
def Flag.ofConfigError : ConfigError → Flag
  | .populationSize => .populationSize
  | .maxGenerations => .generations
  | .maxProgramSize => .maxProgramSize
  | .tournamentSize => .tournamentSize
  | .executor _ => .executor
  | .palette _ | .founders => .instructions

namespace Options

/-- The palette of the settings. -/
def palette (o : Options) : Except ReadError Palette :=
  if o.instructions.isEmpty then .ok .default else Program.read ("(" ++ o.instructions ++ ")")

/-- The inputs of the cases of the settings. -/
def inputs (o : Options) : List Int :=
  match o.cases with
  | .easy => Cubic.easyInputs
  | .full => Cubic.fullInputs

/-- The regression of the settings. -/
def regression (o : Options) : Regression := Cubic.regression o.inputs o.fuel o.penalty

/-- The terms of the evolution, with a palette. -/
def config (o : Options) (palette : Palette) : Config where
  populationSize := o.populationSize
  maxGenerations := o.generations
  palette := palette
  maxProgramSize := o.maxProgramSize
  tournamentSize := o.tournamentSize
  seed := o.seed
  workers := o.workers
  executor := o.executor

/-- What is printed of a generation. -/
def reportText (o : Options) (r : Report) : String :=
  match o.report with
  | .brief => r.brief
  | .full => r.text false
  | .verbose => r.text true

/-- What is printed of an evolution. -/
def prints (o : Options) (run : Run) : List String :=
  run.generations.map (fun g => o.reportText g.report) ++ ["", run.summary] ++
    if run.phase = .success then ["Solution: " ++ Program.print run.last.best.program] else []

/-- The level of the log. -/
def level (o : Options) : Except Refusal LogLevel :=
  if Flag.logLevel ∈ o.missing then .error (.missing .logLevel)
  else
    let name := Text.capitals o.logLevel
    match LogLevel.ofLabel? name with
    | some level => .ok level
    | none => .error (.logLevel name)

/-- The first fault of the terms, if there is one: an option without a value, or an error. It is
found before there is a pool. -/
def fault? (o : Options) (config : Config) : Option Refusal :=
  match config.check none with
  | .ok () => (needed.find? (· ∈ o.missing)).map .missing
  | .error e =>
    let read := needed.takeWhile (· ≠ Flag.ofConfigError e) ++ [Flag.ofConfigError e]
    match read.find? (· ∈ o.missing) with
    | some f => some (.missing f)
    | none => some (.configuration (.config e))

/-- Whether the evaluation of a program needs the penalty, and it is missing: the program leaves a
case without an answer. -/
def lacksPenalty (o : Options) (p : Program) : Bool :=
  decide (Flag.penalty ∈ o.missing) &&
    o.regression.cases.any fun c => !(o.regression.answer p c).isOk

/-- What a session comes to by what becomes of its evolution. Evaluation fails only without a
penalty. -/
def conclude (o : Options) (level : LogLevel) (config : Config) (outcome : Conduct) :
    Except Refusal Transcript :=
  match outcome.result with
  | .ok run => .ok ⟨o.prints run, (run.log config).filter (·.isAtLeast level)⟩
  | .error (.evolution e) => .error (.configuration e)
  | .error (.disruption .evaluation) => .error (.missing .penalty)
  | .error (.disruption d) =>
    .error (.disruption d (outcome.reported.map fun g => o.reportText g.report))

/-- The session of settings with a palette, at a level of the log. -/
def sessionWith (o : Options) (level : LogLevel) (palette : Palette) :
    Except Refusal Transcript :=
  let config := o.config palette
  match o.fault? config with
  | some refusal => .error refusal
  | none =>
    -- Once there is a pool, the first program that is evaluated needs the fuel.
    if Flag.fuel ∈ o.missing ∧ config.pool.isOk then .error (.missing .fuel)
    else o.conclude level config (conduct o.lacksPenalty config o.regression.evaluator none)

/-- The session of the settings. -/
def session (o : Options) : Except Refusal Transcript :=
  match o.level with
  | .error refusal => .error refusal
  | .ok level =>
    match o.palette with
    | .error e => .error (.instructions e)
    | .ok palette => o.sessionWith level palette

end Options

/-- The session of a command line. A request for help is answered by the one who reads the command
line, and what is shown then is left out; the session does nothing more. -/
def session (args : List String) : Except Refusal Transcript :=
  match Options.parse args with
  | .error .help => .ok ⟨[], []⟩
  | .error .misuse => .error .misuse
  | .ok o => o.session

end StackBreeder.CommandLine
