import StackBreeder.Breeding.Crossover
import StackBreeder.Breeding.Individual
import StackBreeder.Breeding.Mutation

/-!
# Selection

Parents win tournaments: a number of individuals is drawn, each from the whole population, and the
one of the least total error wins, the first drawn among equals. A new program is, with even odds,
the crossover of two winners, and otherwise a winner with additions or with deletions, again with
even odds.
-/

namespace StackBreeder

/-- The kinds of variation. -/
inductive Variation where
  | crossover
  | addition
  | deletion
  deriving DecidableEq, Repr

/-- The variation that a draw of the unit interval decides for. -/
def Variation.ofDraw (d : Rat) : Variation :=
  if d < 1 / 2 then .crossover else if d < 3 / 4 then .addition else .deletion

variable {G : Type} [RandomSource G]

/-- Draws an individual of a population. -/
def Population.draw (population : Population) (h : 0 < population.size) : StateM G Individual := do
  let i ← drawBelow population.size h
  pure population[i]

/-- The winner of a tournament of `size` entrants. -/
def tournament (population : Population) (size : Int) : Breeding G Individual :=
  if h : 0 < population.size then
    if size < 1 then throw .noEntrants
    else do
      let entrants ← (times size.toNat (population.draw h) : StateM G _)
      match entrants.minOn? (·.total) with
      | some winner => pure winner
      | none => throw .noEntrants
  else throw .emptyPopulation

/-- The chances of the two kinds of mutation. -/
structure Rates where
  addition : Rat := defaultRate
  deletion : Rat := defaultRate
  deriving DecidableEq, Repr

/-- Draws a new program from the winners of tournaments. -/
def breed (population : Population) (size : Int) (palette : Palette) (rates : Rates) :
    Breeding G Program := do
  let d ← (drawUnit : StateM G Rat)
  match Variation.ofDraw d with
  | .crossover =>
    let a ← tournament population size
    let b ← tournament population size
    (crossover a.program b.program : StateM G Program)
  | .addition =>
    let parent ← tournament population size
    addition palette rates.addition parent.program
  | .deletion =>
    let parent ← tournament population size
    (deletion rates.deletion parent.program : StateM G Program)

end StackBreeder
