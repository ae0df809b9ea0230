import StackBreeder.Regression.Case

/-!
# The cubic problem

The built-in problem: find a program that computes `x³ + x + 3` from its input.
-/

namespace StackBreeder.Cubic

/-- The function to be found. -/
def target (x : Int) : Int := x * x * x + x + 3

/-- The inputs of the easy version of the problem. -/
def easyInputs : List Int := [-3, -2, -1, 0, 1, 2, 3]

/-- The inputs of the full version of the problem. -/
def fullInputs : List Int := [-50, -23, -18, -7, -3, -2, -1, 0, 1, 2, 3, 7, 18, 23, 50]

/-- The cases of the problem for given inputs. -/
def cases (inputs : List Int) : List Case := inputs.map fun x => .ofInt x (target x)

/-- The problem as a regression. -/
def regression (inputs : List Int) (fuel penalty : Int) : Regression :=
  { cases := cases inputs, fuel := fuel, penalty := penalty }

end StackBreeder.Cubic
