import StackBreeder.Evolution.Config
import StackBreeder.Evolution.Generation
import StackBreeder.Random.Twister

/-!
# Evolution

An evolution evaluates a population, and breeds the next one from it, until an individual has no
error left or the last generation is reached; the first of these counts. It draws everything from
the generator of its seed (`evolve`), and its value is the whole history.
-/

namespace StackBreeder

/-- Where an evolution stands. -/
inductive Phase where
  | initializing
  | evaluating
  | checkingTermination
  | reproducing
  /-- It ended with an individual without errors. -/
  | success
  /-- It ended with the last generation. -/
  | exhausted
  deriving DecidableEq, Repr

namespace Phase

/-- All phases, in the order in which an evolution goes through them. -/
def all : List Phase :=
  [initializing, evaluating, checkingTermination, reproducing, success, exhausted]

/-- The name of a phase. -/
def label : Phase → String
  | initializing => "initializing"
  | evaluating => "evaluating"
  | checkingTermination => "checking_termination"
  | reproducing => "reproducing"
  | success => "success"
  | exhausted => "exhausted"

/-- The name of a phase in capital letters. -/
def capitals (phase : Phase) : String := phase.label.map Char.toUpper

/-- The phase of a name. -/
def ofLabel? (label : String) : Option Phase := all.find? (·.label == label)

end Phase

/-- A finished evolution: how it ended, and its generations, of which there is at least one. -/
structure Run where
  phase : Phase
  earlier : List Generation
  last : Generation
  deriving DecidableEq, Repr

namespace Run

/-- All generations, from number zero on. -/
def generations (run : Run) : List Generation := run.earlier ++ [run.last]

/-- The evolution that has one more generation before its first one. -/
def after (run : Run) (g : Generation) : Run := { run with earlier := g :: run.earlier }

end Run

/-- Why an evolution fails. -/
inductive EvolutionError where
  | config (e : ConfigError)
  | breeding (e : BreedingError)
  deriving DecidableEq, Repr

/-- The text of the error. -/
def EvolutionError.message : EvolutionError → String
  | .config e => e.message
  | .breeding e => e.message

section

variable {G : Type} [RandomSource G]

/-- Draws the programs of the first generation. -/
def founders (config : Config) : Breeding G (List Program) :=
  times config.populationSize.toNat (config.palette.drawProgram config.maxProgramSize)

/-- Draws the programs of the generation that follows a population. -/
def offspring (config : Config) (population : Population) : Breeding G (List Program) :=
  times config.populationSize.toNat
    (breed population config.tournamentSize config.palette config.rates)

/-- Goes on from the programs of the generation `number`, for at most `left` more generations. -/
def advance (config : Config) (evaluator : Evaluator) :
    (left number : Nat) → List Program → Breeding G Run
  | left, number, programs =>
    let population := Population.evaluate evaluator programs
    match Generation.of? number population with
    | none => throw .emptyPopulation
    | some g =>
      if population.isSolved then pure ⟨.success, [], g⟩
      else
        match left with
        | 0 => pure ⟨.exhausted, [], g⟩
        | left + 1 => do
          let next ← offspring config population
          let run ← advance config evaluator left (number + 1) next
          pure (run.after g)

/-- An evolution from given programs, or from random ones. -/
def evolution (config : Config) (evaluator : Evaluator) (given : Option (List Program)) :
    Breeding G Run := do
  let programs ←
    match given with
    | some programs => pure programs
    | none => founders config
  advance config evaluator config.maxGenerations.toNat 0 programs

end

/-- Checks the terms and runs an evolution with the generator of the seed. -/
def evolve (config : Config) (evaluator : Evaluator) (given : Option (List Program)) :
    Except EvolutionError Run :=
  match config.check given with
  | .error e => .error (.config e)
  | .ok () =>
    match ((evolution config evaluator given : Breeding Twister Run).run
        (Twister.ofSeed config.seed)).1 with
    | .error e => .error (.breeding e)
    | .ok run => .ok run

end StackBreeder
