import StackBreeder.Breeding.Selection

/-!
# The terms of an evolution

A configuration says how large populations are, how programs are made and varied, how long to go on,
and from which seed to draw. `Config.check` reports the first fault in a fixed order, the population
that may be given to start from last.
-/

namespace StackBreeder

/-- The terms of an evolution. Evaluation may be spread over workers, which changes no score; but a
pool of them must be had first (`Config.pool`). -/
structure Config where
  populationSize : Int := 200
  /-- The number of the last generation, the first one being zero. -/
  maxGenerations : Int := 100
  palette : Palette := .default
  /-- The size limit of the programs of the first generation. -/
  maxProgramSize : Int := 50
  tournamentSize : Int := 20
  rates : Rates := {}
  seed : Int := 0
  workers : Int := 1
  /-- The kind of the workers, `thread` or `process`. -/
  executor : String := "thread"
  deriving DecidableEq, Repr

/-- Why a configuration cannot be used. -/
inductive ConfigError where
  | populationSize
  | maxGenerations
  | maxProgramSize
  | tournamentSize
  | executor (name : String)
  | palette (e : Palette.Error)
  /-- The programs to start from are not as many as the population has members. -/
  | founders
  deriving DecidableEq, Repr

/-- The text of a configuration error. -/
def ConfigError.message : ConfigError → String
  | .populationSize => "population_size must be > 0"
  | .maxGenerations => "max_generations must be >= 0"
  | .maxProgramSize => "max_initial_program_size must be >= 1"
  | .tournamentSize => "tournament_size must be >= 1"
  | .executor name => "unknown executor: " ++ name
  | .palette e => e.message
  | .founders => "initial_population size must match population_size"

/-- Refuses terms on which no evolution can run, given the programs to start from, if any. -/
def Config.check (config : Config) (founders : Option (List Program)) : Except ConfigError Unit :=
  if config.populationSize ≤ 0 then .error .populationSize
  else if config.maxGenerations < 0 then .error .maxGenerations
  else if config.maxProgramSize < 1 then .error .maxProgramSize
  else if config.tournamentSize < 1 then .error .tournamentSize
  else if config.executor ∉ ["thread", "process"] then .error (.executor config.executor)
  else
    match config.palette.check .standard with
    | .error e => .error (.palette e)
    | .ok () =>
      match founders with
      | none => .ok ()
      | some programs =>
        if (programs.length : Int) ≠ config.populationSize then .error .founders else .ok ()

end StackBreeder
