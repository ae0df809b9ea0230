import StackBreeder.Machine.Registry

/-!
# Running programs

The machine takes one item at a time off the execution stack (`step`). Integers and texts go to
their stacks, the items of a block go back before the remaining code, and a symbol runs the
instruction it names. A run (`run`) ends when no code is left, or when its fuel, one unit for each
step, is used up before that.
-/

namespace StackBreeder

/-- Executes the next item of code; without code the state stays as it is. -/
def step (reg : Registry) (s : State) : State :=
  match s.exec with
  | [] => s
  | item :: code =>
    let s := { s with exec := code }
    match item with
    | .int n => s.push .integer n
    | .text content => s.push .string content
    | .block items => s.load items
    | .sym name =>
      match reg.find? name with
      | some i => i.run s
      | none => s

/-- How a run ends. -/
inductive Outcome where
  /-- No code was left after this many steps. -/
  | halted (steps : Nat)
  /-- The fuel was used up after this many steps, and code was left. -/
  | exhausted (steps : Nat)
  deriving DecidableEq, Repr

/-- The number of steps of a run. -/
def Outcome.steps : Outcome → Nat
  | .halted n => n
  | .exhausted n => n

/-- Runs for at most `fuel` more steps, after the given number of steps. -/
def runFrom (reg : Registry) : (fuel : Nat) → (steps : Nat) → State → State × Outcome
  | fuel, steps, s =>
    if s.exec.isEmpty then (s, .halted steps)
    else
      match fuel with
      | 0 => (s, .exhausted steps)
      | fuel + 1 => runFrom reg fuel (steps + 1) (step reg s)

/-- Runs a state until no code is left or the fuel is used up. Negative fuel counts as none. -/
def run (reg : Registry) (fuel : Int) (s : State) : State × Outcome :=
  runFrom reg fuel.toNat 0 s

/-- Binds inputs, loads a program and runs. -/
def runProgram (reg : Registry) (fuel : Int) (s : State) (inputs : List Value) (p : Program) :
    State × Outcome :=
  run reg fuel ((s.bindAll inputs).load p)

/-- The states of a run: the given one, and then the one after each step, until no code is left or
there are `max` steps. -/
def trace (reg : Registry) : (max : Nat) → State → List State
  | 0, s => [s]
  | max + 1, s => if s.exec.isEmpty then [s] else s :: trace reg max (step reg s)

/-- The fuel of a run when nothing else is said. -/
def defaultFuel : Int := 10000

end StackBreeder
