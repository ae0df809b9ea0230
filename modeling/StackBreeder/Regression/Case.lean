import StackBreeder.Breeding.Individual
import StackBreeder.Machine.Run

/-!
# Regression

A regression scores programs by how far their answers are from the expected integers. A program
runs on each case from the empty state with the inputs of the case bound, and its answer is the
integer on top at the end (`Regression.answer`). A case that ends without an answer costs a fixed
penalty; one that runs out of fuel may cost a penalty of its own.
-/

namespace StackBreeder

/-- Inputs, and the integer a program should leave on top for them. -/
structure Case where
  inputs : List Value
  expected : Int
  deriving DecidableEq, Repr

/-- The case of one integer input. -/
def Case.ofInt (x expected : Int) : Case := ⟨[.int x], expected⟩

/-- Why a case has no answer. -/
inductive Fault where
  /-- The fuel was used up. -/
  | timeout
  /-- The run ended with no integer on the stack. -/
  | noOutput
  deriving DecidableEq, Repr

namespace Fault

/-- The name of a fault. -/
def label : Fault → String
  | timeout => "Timeout"
  | noOutput => "NoOutput"

/-- The text of a fault. -/
def message : Fault → String
  | timeout => "fuel exhausted"
  | noOutput => "integer stack empty at halt"

end Fault

/-- The penalty when nothing else is said. -/
def defaultPenalty : Int := 1000000

/-- Cases with the terms on which programs are run on them. -/
structure Regression where
  cases : List Case
  fuel : Int := defaultFuel
  /-- The error of a case without an answer. -/
  penalty : Int := defaultPenalty
  /-- The error of a case that runs out of fuel, if it differs from the penalty. -/
  timeoutPenalty : Option Int := none
  deriving DecidableEq, Repr

namespace Regression

/-- The answer of a program on a case. -/
def answer (r : Regression) (p : Program) (c : Case) : Except Fault Int :=
  match runProgram .standard r.fuel .empty c.inputs p with
  | (_, .exhausted _) => .error .timeout
  | (final, .halted _) =>
    match final.top? .integer with
    | some n => .ok n
    | none => .error .noOutput

/-- The error of a program on a case. -/
def caseError (r : Regression) (p : Program) (c : Case) : Int :=
  match r.answer p c with
  | .ok n => (c.expected - n).natAbs
  | .error .timeout => r.timeoutPenalty.getD r.penalty
  | .error .noOutput => r.penalty

/-- The errors of a program on all cases, and their sum. -/
def evaluator (r : Regression) : Evaluator := fun p => .ofErrors (r.cases.map (r.caseError p))

end Regression

end StackBreeder
