import StackBreeder.Program.Value

/-!
# Individuals and populations

Evaluation turns a program into an individual: the program, its errors and its total error. The
fittest individuals have the least total error, and among equals the earliest counts
(`Population.best?`).
-/

namespace StackBreeder

/-- What an evaluator finds out about a program. -/
structure Score where
  /-- One error for each case. -/
  errors : List Int
  total : Int
  deriving DecidableEq, Repr

/-- The sum of errors. -/
def totalError (errors : List Int) : Int := errors.foldr (· + ·) 0

/-- The score of errors whose sum is the total. -/
def Score.ofErrors (errors : List Int) : Score := ⟨errors, totalError errors⟩

/-- Scores programs; less is better. -/
abbrev Evaluator := Program → Score

/-- An evaluated program. -/
structure Individual where
  program : Program
  errors : List Int
  total : Int
  deriving DecidableEq, Repr

/-- An individual that has not been evaluated: no errors are known of it. -/
def Individual.unevaluated (p : Program) : Individual := ⟨p, [], 0⟩

/-- An individual whose total error is the sum of its errors. -/
def Individual.scored (p : Program) (errors : List Int) : Individual :=
  ⟨p, errors, totalError errors⟩

/-- The individual that a program is under an evaluator. -/
def Individual.ofProgram (evaluate : Evaluator) (p : Program) : Individual :=
  let score := evaluate p
  ⟨p, score.errors, score.total⟩

/-- Individuals in a fixed order. -/
abbrev Population := Array Individual

namespace Population

/-- The individuals that programs are under an evaluator, in the order of the programs. -/
def evaluate (evaluator : Evaluator) (programs : List Program) : Population :=
  (programs.map (Individual.ofProgram evaluator)).toArray

/-- The earliest individual of the least total error. -/
def best? (population : Population) : Option Individual := population.toList.minOn? (·.total)

/-- Whether an individual has no error at all. -/
def isSolved (population : Population) : Bool := population.any (·.total = 0)

end Population

end StackBreeder
