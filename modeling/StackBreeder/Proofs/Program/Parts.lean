import StackBreeder.Program.Value

/-!
# The parts of a program

The parts of a value are the value itself and, in a block, the parts of its items: whatever occurs
in the value at some depth. Statements about every symbol or every integer of a program are
statements about its parts. `Value.induction` is the induction that goes with them: what holds of a
block whenever it holds of its items, and of all other values, holds of every value.
-/

namespace StackBreeder

mutual

/-- A value and everything that occurs in it, at any depth, in the order of reading. -/
def Value.parts : Value → List Value
  | .int n => [.int n]
  | .text content => [.text content]
  | .sym name => [.sym name]
  | .block items => .block items :: Value.itemParts items

/-- `Value.parts` of the items of a list, one after the other. -/
def Value.itemParts : List Value → List Value
  | [] => []
  | v :: vs => v.parts ++ Value.itemParts vs

end

/-- Everything that occurs in a program, at any depth. -/
def Program.parts (p : Program) : List Value := Value.itemParts p

/-- Induction on values: the items of a block satisfy what is to be shown of the block. -/
@[elab_as_elim]
theorem Value.induction {motive : Value → Prop} (int : ∀ n, motive (.int n))
    (text : ∀ content, motive (.text content)) (sym : ∀ name, motive (.sym name))
    (block : ∀ items, (∀ v ∈ items, motive v) → motive (.block items)) : ∀ v, motive v
  | .int n => int n
  | .text content => text content
  | .sym name => sym name
  | .block items => block items fun v _ => Value.induction int text sym block v

section
variable {v w : Value} {p q : Program} {items : List Value} {name : String}

@[simp] theorem Program.parts_nil : Program.parts [] = [] := rfl

@[simp] theorem Program.parts_cons : Program.parts (v :: p) = v.parts ++ Program.parts p := rfl

@[simp] theorem Value.parts_sym : (Value.sym name).parts = [.sym name] := rfl

@[simp] theorem Value.parts_block :
    (Value.block items).parts = .block items :: Program.parts items := rfl

theorem Value.self_mem_parts (v : Value) : v ∈ v.parts := by
  cases v with
  | int | text | sym | block => exact .head _

/-- What occurs in a program occurs in one of its items. -/
theorem Program.mem_parts_iff : w ∈ Program.parts p ↔ ∃ v ∈ p, w ∈ v.parts := by
  induction p with
  | nil => simp
  | cons v p ih => simp [ih]

@[simp] theorem Program.parts_append : Program.parts (p ++ q) = p.parts ++ q.parts := by
  induction p with
  | nil => rfl
  | cons v p ih => simp [ih]

end

end StackBreeder
