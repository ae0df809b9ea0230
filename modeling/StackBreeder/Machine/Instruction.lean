import StackBreeder.Machine.State

/-!
# Instructions

An instruction has a name, the stacks it takes its operands from, the stack it leaves its result
on, and its effect on a state. An instruction that lacks an operand does nothing.

`State.apply` is the general form of such an effect: operands are popped in the order in which
their stacks are listed, and the function receives them deepest first, so that two operands from
one stack arrive as the second and the top. The built-in operators work on the integer stack, and
`Instruction.binary_run` says that they follow this rule.
-/

namespace StackBreeder

/-- A named effect on the state of a machine. -/
structure Instruction where
  name : String
  /-- Where the operands come from, in the order in which they are popped. -/
  args : List Stack
  /-- Where the result goes. -/
  out : Stack
  run : State → State

namespace State

/-- Pops one operand for every stack of a list, in its order; nothing if a stack runs dry. -/
def popAll? (s : State) : List Stack → Option (List Value × State)
  | [] => some ([], s)
  | k :: ks =>
    match s.top? k with
    | none => none
    | some x => ((s.pop k).popAll? ks).map fun (vs, rest) => (k.toValue x :: vs, rest)

/-- Replaces operands by the result of a function on them, which receives them in the reverse order
of popping. If a stack runs dry the state stays as it is. -/
def apply (s : State) (args : List Stack) (out : Stack) (fn : List Value → out.Elem) : State :=
  match s.popAll? args with
  | none => s
  | some (operands, rest) => rest.push out (fn operands.reverse)

end State

/-- Division toward zero that leaves the numerator as it is when the denominator is zero. -/
def protectedQuotient (a b : Int) : Int := if b = 0 then a else a.tdiv b

namespace Instruction

/-- The operator that replaces the two top integers by the result of a function on the second and
the top. -/
def binary (name : String) (op : Int → Int → Int) : Instruction where
  name := name
  args := [.integer, .integer]
  out := .integer
  run s :=
    match s.integer with
    | b :: a :: rest => { s with integer := op a b :: rest }
    | _ => s

/-- The instruction that reads an input: its value is placed before the code still to run, so that
it is executed like code. Without such an input nothing happens. -/
def input (name : String) : Instruction where
  name := name
  args := []
  out := .exec
  run s :=
    match s.lookup name with
    | some v => { s with exec := v :: s.exec }
    | none => s

/-- The built-in operators. -/
def arithmetic : List Instruction :=
  [binary "integer_+" (· + ·), binary "integer_-" (· - ·), binary "integer_*" (· * ·),
   binary "integer_%" protectedQuotient]

/-- A function of two integers on a list of two integer values. -/
def onIntegers (op : Int → Int → Int) : List Value → Int
  | [.int a, .int b] => op a b
  | _ => 0

/-- An operator applies its function to two operands from the integer stack. -/
theorem binary_run (name : String) (op : Int → Int → Int) (s : State) :
    (binary name op).run s =
      s.apply [.integer, .integer] .integer (onIntegers op) := by
  obtain ⟨exec, integer, string, inputs⟩ := s
  rcases integer with _ | ⟨b, _ | ⟨a, rest⟩⟩ <;> rfl

end Instruction

end StackBreeder
