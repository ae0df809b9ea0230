/-!
# Failures of breeding

Breeding draws from lists that may be empty, and takes sizes that may be too small. It runs in the
monad `Breeding`: a failure ends the computation, and the draws made before it stay made.
-/

namespace StackBreeder

/-- Why no offspring can be drawn. -/
inductive BreedingError where
  /-- An item was to be drawn from an empty palette. -/
  | nothingToDraw
  /-- A program was to be made from an empty palette. -/
  | emptyPalette
  /-- A program was to be made with a size limit less than one. -/
  | noSize
  /-- An individual was to be chosen from an empty population. -/
  | emptyPopulation
  /-- A tournament was to have fewer than one entrant. -/
  | noEntrants
  deriving DecidableEq, Repr

/-- The text of a breeding error. -/
def BreedingError.message : BreedingError → String
  | .nothingToDraw => "empty range for randrange()"
  | .emptyPalette => "palette must not be empty"
  | .noSize => "max_size must be >= 1"
  | .emptyPopulation => "population is empty"
  | .noEntrants => "tournament size must be >= 1"

/-- Computations with draws that can fail. -/
abbrev Breeding (G : Type) := ExceptT BreedingError (StateM G)

end StackBreeder
