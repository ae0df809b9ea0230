import StackBreeder.Machine.Instruction

/-!
# Registries

A registry is the list of the instructions that a machine knows, no two of one name. A machine
looks instructions up by name, and a symbol that no instruction answers to is dropped.
-/

namespace StackBreeder

/-- Instructions with distinct names, in the order in which they were registered. -/
structure Registry where
  entries : List Instruction
  nodup : (entries.map (·.name)).Nodup

/-- Two instructions were registered under one name. -/
structure DuplicateInstruction where
  name : String
  deriving DecidableEq, Repr

/-- The text of the error. -/
def DuplicateInstruction.message (e : DuplicateInstruction) : String :=
  "duplicate instruction: " ++ e.name

namespace Registry

/-- The registry without instructions. -/
def empty : Registry := ⟨[], List.nodup_nil⟩

/-- The names of the instructions. -/
def names (reg : Registry) : List String := reg.entries.map (·.name)

/-- The instruction of a name. -/
def find? (reg : Registry) (name : String) : Option Instruction :=
  reg.entries.find? (·.name == name)

/-- Whether an instruction has the name. -/
def contains (reg : Registry) (name : String) : Bool := (reg.find? name).isSome

/-- Registers an instruction last, unless its name is taken. -/
def insert (reg : Registry) (i : Instruction) : Except DuplicateInstruction Registry :=
  if h : i.name ∈ reg.names then .error ⟨i.name⟩
  else .ok ⟨reg.entries ++ [i], by
    have hreg := reg.nodup
    simp only [names] at h
    simp only [List.map_append, List.map_cons, List.map_nil, List.nodup_append]
    exact ⟨hreg, by simp, fun a ha b hb => by simp at hb; subst hb; exact fun e => h (e ▸ ha)⟩⟩

/-- Registers instructions in order. The error names the first instruction whose name is taken by
one before it. -/
def ofList (instructions : List Instruction) : Except DuplicateInstruction Registry :=
  instructions.foldlM insert empty

/-- The built-in instructions: the first input and the operators. -/
def standard : Registry := ⟨.input "in1" :: Instruction.arithmetic, by decide⟩

end Registry

end StackBreeder
