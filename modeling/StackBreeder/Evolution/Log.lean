import StackBreeder.Evolution.Run
import StackBreeder.Text.FixedPoint

/-!
# The log of an evolution

A log is a list of entries, each with a level. An evolution logs its workers, if there is more than
one, then each of its generations, and last how it ended (`Run.log`).
-/

namespace StackBreeder

/-- How much an entry of a log matters, the least first. -/
inductive LogLevel where
  | trace
  | debug
  | info
  | success
  | warning
  | error
  | critical
  deriving DecidableEq, Repr

namespace LogLevel

/-- All levels, the least first. -/
def all : List LogLevel := [trace, debug, info, success, warning, error, critical]

/-- The name of a level. -/
def label : LogLevel → String
  | trace => "TRACE"
  | debug => "DEBUG"
  | info => "INFO"
  | success => "SUCCESS"
  | warning => "WARNING"
  | error => "ERROR"
  | critical => "CRITICAL"

/-- The level of a name. -/
def ofLabel? (label : String) : Option LogLevel := all.find? (·.label == label)

end LogLevel

/-- One entry of a log. -/
structure LogEntry where
  level : LogLevel
  text : String
  deriving DecidableEq, Repr

/-- An entry in one line. -/
def LogEntry.line (e : LogEntry) : String := e.level.label ++ " " ++ e.text

/-- Whether an entry is at a level or above. -/
def LogEntry.isAtLeast (e : LogEntry) (level : LogLevel) : Bool :=
  level.ctorIdx ≤ e.level.ctorIdx

/-- What is logged of a generation. -/
def Generation.logEntry (g : Generation) : LogEntry :=
  ⟨.debug, "[evolve] gen=" ++ toString g.number ++ " best=" ++ toString g.best.total ++
    " mean=" ++ toString g.meanTotal ++ " size=" ++ Text.fixed 2 g.meanSize⟩

/-- What is logged of the workers: nothing if there is only one. -/
def Config.logEntries (config : Config) : List LogEntry :=
  if config.workers ≤ 1 then []
  else [⟨.debug, "[evolve] Created " ++ config.executor ++ " pool with " ++
    toString config.workers ++ " workers"⟩]

/-- The log of an evolution on given terms. -/
def Run.log (config : Config) (run : Run) : List LogEntry :=
  config.logEntries ++ run.generations.map Generation.logEntry ++
    [⟨.info, "[evolve] " ++ run.phase.label ++ " at generation " ++ toString run.last.number ++
      ", best total error " ++ toString run.last.best.total⟩]

end StackBreeder
