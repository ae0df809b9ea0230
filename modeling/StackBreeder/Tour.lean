import StackBreeder.Machine.Run
import StackBreeder.Program.Printing
import StackBreeder.Regression.Case

/-!
# A tour of the machine

Two small runs that show how a program uses the stacks: one on constants, and one that reads an
operand from an input and starts with something on its stacks.
-/

namespace StackBreeder.Tour

/-- A program that computes `3 * 5` and then subtracts its last operand, with two texts between. -/
def program (operand : Value) : Program :=
  [.int 3, .int 5, .sym "integer_*", .text "hello", operand, .text "world", .sym "integer_-"]

/-- The fuel of both runs. -/
def fuel : Int := 1000

/-- The elements of a stack in their written forms, top first. -/
def stackText (s : State) (k : Stack) : String :=
  String.intercalate " " ((s.contents k).map fun x => (k.toValue x).print)

/-- How a run ended. -/
def outcomeText : Outcome → String
  | .halted steps => "Halted after " ++ toString steps ++ " steps"
  | .exhausted _ => "Error: " ++ Fault.timeout.label ++ " " ++ Fault.timeout.message

/-- The lines of the tour. -/
def lines : List String :=
  let (final, outcome) := runProgram .standard fuel .empty [] (program (.int 4))
  let start : State := { integer := [1], string := ["abc"], inputs := [("in1", .int 4)] }
  let (second, _) := runProgram .standard fuel start [] (program (.sym "in1"))
  ["Program: " ++ Program.print (program (.int 4)),
   outcomeText outcome,
   "integer: " ++ stackText final .integer,
   "string: " ++ stackText final .string,
   "with in1=4 over integer (1): " ++ stackText second .integer]

/-- The tour as one text. -/
def text : String := String.join (lines.map (· ++ "\n"))

end StackBreeder.Tour
