import StackBreeder.Breeding.Individual

/-!
# Generations

A generation is an evaluated population with its number and its best individual. What is reported of
it (`Generation.report`) is the best individual and two means over the population: of the total
errors, rounded down, and of the program sizes, as a double.
-/

namespace StackBreeder

/-- What is reported of a generation. -/
structure Report where
  generation : Int
  best : Individual
  bestSize : Int
  bestTotal : Int
  bestErrors : List Int
  meanTotal : Int
  meanSize : Float

/-- An evaluated population of an evolution. -/
structure Generation where
  number : Nat
  population : Population
  best : Individual
  deriving DecidableEq, Repr

namespace Generation

/-- The generation of a number and a population, which must have a member. -/
def of? (number : Nat) (population : Population) : Option Generation :=
  population.best?.map fun best => ⟨number, population, best⟩

/-- The sum of the total errors. -/
def sumTotals (g : Generation) : Int := totalError (g.population.toList.map (·.total))

/-- The sum of the program sizes. -/
def sumSizes (g : Generation) : Nat :=
  g.population.foldl (fun n individual => n + individual.program.length) 0

/-- The mean of the total errors, rounded down. -/
def meanTotal (g : Generation) : Int := g.sumTotals / g.population.size

/-- The mean of the program sizes. -/
def meanSize (g : Generation) : Float := Float.ofNat g.sumSizes / Float.ofNat g.population.size

/-- What is reported of a generation. -/
def report (g : Generation) : Report where
  generation := g.number
  best := g.best
  bestSize := g.best.program.length
  bestTotal := g.best.total
  bestErrors := g.best.errors
  meanTotal := g.meanTotal
  meanSize := g.meanSize

end Generation

end StackBreeder
