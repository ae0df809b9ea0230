import StackBreeder.Program.Value
import StackBreeder.Text.Integer

/-!
# The machine's stacks

A state has four containers. Code waits on the execution stack; integers and texts are computed on
stacks of their own type; and the inputs are values bound to names. Every stack is kept top first.
The inputs are kept in the order in which they were bound, and their top is the latest binding.

`State.contents` is the view of a container as a list, top first. `State.top?`, `State.depth` and
`State.isEmpty` read it, and the lemmas at the end say what `State.push` and `State.pop` do to it.
-/

namespace StackBreeder

/-- The four containers of a machine. -/
inductive Stack where
  | exec
  | integer
  | string
  | input
  deriving DecidableEq, Repr

namespace Stack

/-- What a container holds: code and inputs are values of any kind. -/
abbrev Elem : Stack → Type
  | exec => Value
  | integer => Int
  | string => String
  | input => Value

/-- The name of a container. -/
def label : Stack → String
  | exec => "exec"
  | integer => "integer"
  | string => "string"
  | input => "input"

/-- An element of a container as a value. -/
def toValue : (k : Stack) → k.Elem → Value
  | exec, v => v
  | integer, n => .int n
  | string, content => .text content
  | input, v => v

/-- The element of a container that a value stands for, if the container takes such values. -/
def ofValue? : (k : Stack) → Value → Option k.Elem
  | exec, v => some v
  | integer, .int n => some n
  | string, .text content => some content
  | input, v => some v
  | _, _ => none

/-- The value of an element stands for the element. -/
theorem ofValue?_toValue (k : Stack) (x : k.Elem) : k.ofValue? (k.toValue x) = some x := by
  cases k <;> rfl

end Stack

/-- The state of a machine. -/
structure State where
  /-- The code still to run, next item first. -/
  exec : List Value := []
  /-- The integers, top first. -/
  integer : List Int := []
  /-- The texts, top first. -/
  string : List String := []
  /-- The inputs with their names, in the order of binding. -/
  inputs : List (String × Value) := []
  deriving DecidableEq, Repr, Inhabited

/-- The name of the `i`-th input, counted from one: `in1`, `in2` and so on. -/
def inputName (i : Nat) : String := String.ofList ('i' :: 'n' :: Nat.toDigits 10 i)

namespace State

/-- The state with nothing in it. -/
def empty : State := {}

/-- What a container holds, top first. -/
def contents (s : State) : (k : Stack) → List k.Elem
  | .exec => s.exec
  | .integer => s.integer
  | .string => s.string
  | .input => (s.inputs.map (·.2)).reverse

/-- The top of a container. -/
def top? (s : State) (k : Stack) : Option k.Elem := (s.contents k).head?

/-- How many elements a container holds. -/
def depth (s : State) (k : Stack) : Nat := (s.contents k).length

/-- Whether a container holds nothing. -/
def isEmpty (s : State) (k : Stack) : Bool := (s.contents k).isEmpty

/-- Binds a value to the name that follows from the number of inputs. -/
def bind (s : State) (v : Value) : State :=
  { s with inputs := s.inputs ++ [(inputName (s.inputs.length + 1), v)] }

/-- Binds values one after the other. -/
def bindAll (s : State) (vs : List Value) : State := vs.foldl bind s

/-- The value of an input. Of several inputs of one name the earliest counts. -/
def lookup (s : State) (name : String) : Option Value := s.inputs.lookup name

/-- Puts an element on top of a container; on the inputs this is a binding. -/
def push (s : State) : (k : Stack) → k.Elem → State
  | .exec, v => { s with exec := v :: s.exec }
  | .integer, n => { s with integer := n :: s.integer }
  | .string, content => { s with string := content :: s.string }
  | .input, v => s.bind v

/-- Takes the top off a container; an empty one stays as it is. -/
def pop (s : State) : Stack → State
  | .exec => { s with exec := s.exec.tail }
  | .integer => { s with integer := s.integer.tail }
  | .string => { s with string := s.string.tail }
  | .input => { s with inputs := s.inputs.dropLast }

/-- Puts a program before the code still to run; its first item runs next. -/
def load (s : State) (p : Program) : State := { s with exec := p ++ s.exec }

/-- Values are bound in their order to the next names, and nothing else changes. -/
theorem bindAll_eq (s : State) (vs : List Value) :
    s.bindAll vs = { s with
      inputs := s.inputs ++ vs.mapIdx fun i v => (inputName (s.inputs.length + i + 1), v) } := by
  induction vs generalizing s with
  | nil => simp [bindAll]
  | cons v vs ih =>
    have hcons : s.bindAll (v :: vs) = (s.bind v).bindAll vs := rfl
    rw [hcons, ih]
    simp [bind, Nat.add_assoc, Nat.add_comm 1]

/-- A pushed element lies on top of what its container held before. -/
@[simp] theorem contents_push (s : State) (k : Stack) (x : k.Elem) :
    (s.push k x).contents k = x :: s.contents k := by
  cases k <;> simp [push, contents, bind]

/-- A pop leaves what its container held below the top. -/
@[simp] theorem contents_pop (s : State) (k : Stack) :
    (s.pop k).contents k = (s.contents k).tail := by
  cases k <;> simp [pop, contents]

/-- A push leaves the other containers alone. -/
theorem contents_push_of_ne (s : State) {k l : Stack} (h : l ≠ k) (x : k.Elem) :
    (s.push k x).contents l = s.contents l := by
  cases k <;> cases l <;> first | exact absurd rfl h | rfl

/-- A pop leaves the other containers alone. -/
theorem contents_pop_of_ne (s : State) {k l : Stack} (h : l ≠ k) :
    (s.pop k).contents l = s.contents l := by
  cases k <;> cases l <;> first | exact absurd rfl h | rfl

end State

end StackBreeder
