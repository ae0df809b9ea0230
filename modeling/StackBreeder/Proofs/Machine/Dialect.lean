import StackBreeder.Machine.Run

/-!
# Dialects

A registry holds instructions as functions on states. A `Dialect` is the same for registries made of
the built-in operators and of instructions that read inputs, with every entry as data, so that it
can be told what a symbol means: `Dialect.registry` is the registry, and every such registry is that
of a dialect (`exists_registry_eq`).

A step of the machine takes a value off the code. What the value does by itself to the integers and
texts is `Dialect.act`; what is executed in its place, before the remaining code, is
`Dialect.expansion`. The two say everything about a step (`step_cons`).
-/

namespace StackBreeder

/-- The built-in operators. -/
inductive Operator where
  | plus
  | minus
  | times
  | quotient
  deriving DecidableEq, Repr

namespace Operator

def name : Operator → String
  | plus => "integer_+"
  | minus => "integer_-"
  | times => "integer_*"
  | quotient => "integer_%"

/-- What an operator computes of the second and the top integer. -/
def apply : Operator → Int → Int → Int
  | plus, a, b => a + b
  | minus, a, b => a - b
  | times, a, b => a * b
  | quotient, a, b => protectedQuotient a b

end Operator

/-- An entry of a registry: an operator, or the reading of an input. -/
inductive Builtin where
  | operator (o : Operator)
  | input (name : String)
  deriving DecidableEq, Repr

namespace Builtin

def name : Builtin → String
  | operator o => o.name
  | input name => name

def instruction : Builtin → Instruction
  | operator o => .binary o.name o.apply
  | input name => .input name

theorem name_instruction (b : Builtin) : b.instruction.name = b.name := by
  cases b <;> rfl

theorem map_name_instruction (bs : List Builtin) :
    (bs.map (·.instruction)).map (·.name) = bs.map (·.name) := by
  rw [List.map_map]
  exact List.map_congr_left fun b _ => b.name_instruction

/-- The built-in operators and the readings of inputs are the instructions of entries. -/
theorem exists_instruction_eq {i : Instruction}
    (h : i ∈ Instruction.arithmetic ∨ ∃ name, i = .input name) :
    ∃ b : Builtin, b.instruction = i := by
  rcases h with h | ⟨name, rfl⟩
  · have hall : Instruction.arithmetic = [Operator.plus, .minus, .times, .quotient].map
        fun o => (operator o).instruction := rfl
    rw [hall] at h
    obtain ⟨o, -, rfl⟩ := List.mem_map.1 h
    exact ⟨operator o, rfl⟩
  · exact ⟨input name, rfl⟩

end Builtin

/-- A registry of operators and readings of inputs, given by its entries. -/
structure Dialect where
  entries : List Builtin
  nodup : (entries.map (·.name)).Nodup

/-- Without code a step does nothing. -/
theorem step_of_exec_nil {reg : Registry} {s : State} (h : s.exec = []) : step reg s = s := by
  rw [step, h]

/-- The integers and texts of a state, on which programs compute. -/
structure Data where
  integer : List Int
  string : List String
  deriving DecidableEq, Repr

def State.data (s : State) : Data := ⟨s.integer, s.string⟩

/-- The state with the given code, integers and texts, and inputs. -/
def Data.state (σ : Data) (code : List Value) (inputs : List (String × Value)) : State :=
  ⟨code, σ.integer, σ.string, inputs⟩

/-- Replaces the two top integers by the result of an operator; with fewer nothing happens. -/
def Data.combine (o : Operator) (σ : Data) : Data :=
  match σ.integer with
  | b :: a :: rest => { σ with integer := o.apply a b :: rest }
  | _ => σ

namespace Dialect

/-- The registry of a dialect. -/
def registry (d : Dialect) : Registry where
  entries := d.entries.map (·.instruction)
  nodup := by
    rw [Builtin.map_name_instruction]
    exact d.nodup

/-- The entry of a name. -/
def find? (d : Dialect) (name : String) : Option Builtin := d.entries.find? (·.name == name)

/-- The built-in instructions: the first input and the operators. -/
def standard : Dialect where
  entries := [.input "in1", .operator .plus, .operator .minus, .operator .times,
    .operator .quotient]
  nodup := by decide

theorem registry_standard : standard.registry = .standard := rfl

/-- Every registry made of operators and readings of inputs is that of a dialect. -/
theorem exists_registry_eq {reg : Registry}
    (h : ∀ i ∈ reg.entries, i ∈ Instruction.arithmetic ∨ ∃ name, i = .input name) :
    ∃ d : Dialect, d.registry = reg := by
  obtain ⟨entries, nodup⟩ := reg
  obtain ⟨bs, rfl⟩ : ∃ bs : List Builtin, bs.map (·.instruction) = entries := by
    induction entries with
    | nil => exact ⟨[], rfl⟩
    | cons i entries ih =>
      obtain ⟨hi, hrest⟩ := List.forall_mem_cons.1 h
      obtain ⟨b, rfl⟩ := Builtin.exists_instruction_eq hi
      obtain ⟨bs, rfl⟩ := ih (List.nodup_cons.1 nodup).2 hrest
      exact ⟨b :: bs, rfl⟩
  rw [Builtin.map_name_instruction] at nodup
  exact ⟨⟨bs, nodup⟩, rfl⟩

/-- The registry of a dialect knows the instructions of its entries. -/
theorem find?_registry (d : Dialect) (name : String) :
    d.registry.find? name = (d.find? name).map (·.instruction) := by
  rw [Registry.find?, registry, List.find?_map, find?]
  congr 2
  funext b
  exact congrArg (· == name) b.name_instruction

theorem name_of_find? {d : Dialect} {name : String} {b : Builtin} (h : d.find? name = some b) :
    b.name = name := by
  simpa using List.find?_some h

/-- What a value does to the integers and texts when it is executed: an integer and a text are put
on their stacks, and an operator combines two integers. -/
def act (d : Dialect) : Value → Data → Data
  | .int n, σ => { σ with integer := n :: σ.integer }
  | .text content, σ => { σ with string := content :: σ.string }
  | .block _, σ => σ
  | .sym name, σ =>
    match d.find? name with
    | some (.operator o) => σ.combine o
    | _ => σ

/-- What is executed in the place of a value: the items of a block from left to right, and the value
bound to an input that is read. -/
def expansion (d : Dialect) (inputs : List (String × Value)) : Value → List Value
  | .int _ | .text _ => []
  | .block items => items
  | .sym name =>
    match d.find? name with
    | some (.input _) => (inputs.lookup name).toList
    | _ => []

/-- A step lets the next value act on the data and puts its expansion in its place. -/
theorem step_cons (d : Dialect) (σ : Data) (v : Value) (code : List Value)
    (inputs : List (String × Value)) :
    step d.registry (σ.state (v :: code) inputs) =
      (d.act v σ).state (d.expansion inputs v ++ code) inputs := by
  cases v with
  | int | text | block => rfl
  | sym name =>
    simp only [step, Data.state, find?_registry, act, expansion]
    cases hb : d.find? name with
    | none => rfl
    | some b =>
      cases b with
      | operator o =>
        obtain ⟨integer, string⟩ := σ
        rcases integer with _ | ⟨b, _ | ⟨a, rest⟩⟩ <;> rfl
      | input name' =>
        obtain rfl : name' = name := name_of_find? hb
        simp only [Option.map_some, Builtin.instruction, Instruction.input, State.lookup]
        cases inputs.lookup name' <;> rfl

/-- `step_cons` for a state whose next value is known. -/
theorem step_of_exec {d : Dialect} {s : State} {v : Value} {code : List Value}
    (h : s.exec = v :: code) :
    step d.registry s = (d.act v s.data).state (d.expansion s.inputs v ++ code) s.inputs := by
  rw [← step_cons, ← h]
  rfl

end Dialect

end StackBreeder
