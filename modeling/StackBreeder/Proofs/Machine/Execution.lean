import StackBreeder.Proofs.Machine.Halting

/-!
# What a run executes

A step takes a value off the code, and a run executes these values one after the other (`executed`).
Code holds what occurs in it at some depth and, if it holds the name of an input, what occurs in the
value of that input (`Dialect.Holds`). Nothing else is ever executed (`Dialect.holds_of_executed`),
and a run that works off its code has executed all of it (`Dialect.mem_executed_iff_holds`).
-/

namespace StackBreeder

section
variable {reg : Registry} {s : State} {v : Value} {n : Nat}

/-- The values that the next `n` steps take off the code, in order. -/
def executed (reg : Registry) : (n : Nat) → State → List Value
  | 0, _ => []
  | n + 1, s => s.exec.head?.toList ++ executed reg n (step reg s)

/-- A value is taken off the code if it is the next one after some number of steps. -/
theorem mem_executed_iff :
    v ∈ executed reg n s ↔ ∃ i < n, ((step reg)^[i] s).exec.head? = some v := by
  induction n generalizing s with
  | zero => simp [executed]
  | succ n ih =>
    rw [executed, List.mem_append, Option.mem_toList, ih, Nat.exists_lt_succ_left]
    rfl

/-- Without code nothing is executed. -/
theorem executed_of_exec_nil (h : s.exec = []) : executed reg n s = [] := by
  induction n with
  | zero => rfl
  | succ n ih => rw [executed, step_of_exec_nil h, ih, h]; rfl

end

namespace Dialect

/-- What code holds: whatever occurs in it, and whatever occurs in the value that is read for a name
which it holds. -/
inductive Holds (d : Dialect) (inputs : List (String × Value)) (p : Program) : Value → Prop
  | code {v : Value} (h : v ∈ p.parts) : Holds d inputs p v
  | read {name : String} {v w : Value} (h : Holds d inputs p (.sym name))
      (hw : w ∈ d.expansion inputs (.sym name)) (hv : v ∈ w.parts) : Holds d inputs p v

variable {d : Dialect} {inputs : List (String × Value)} {u v w : Value} {code : List Value}
  {s : State} {n : Nat}

/-- First the next value is executed, and then what is executed after it. -/
theorem executed_of_exec (h : s.exec = v :: code) :
    executed d.registry (n + 1) s =
      v :: executed d.registry n
        ((d.act v s.data).state (d.expansion s.inputs v ++ code) s.inputs) := by
  rw [executed, step_of_exec h, h]
  rfl

/-! ## Nothing but what the code holds -/

/-- A value holds what occurs in its expansion. -/
theorem holds_of_mem_parts_expansion (h : v ∈ Program.parts (d.expansion inputs u)) :
    d.Holds inputs (u :: code) v := by
  cases u with
  | int | text => cases h
  | block items => exact .code (.tail _ (List.mem_append_left _ h))
  | sym name =>
    obtain ⟨w, hw, hv⟩ := Program.mem_parts_iff.1 h
    exact .read (.code (.head _)) hw hv

/-- Code holds what it holds after a step. -/
theorem Holds.of_expand (h : d.Holds inputs (d.expansion inputs u ++ code) v) :
    d.Holds inputs (u :: code) v := by
  induction h with
  | code h =>
    rw [Program.parts_append, List.mem_append] at h
    rcases h with h | h
    · exact holds_of_mem_parts_expansion h
    · exact .code (List.mem_append_right _ h)
  | read _ hw hv ih => exact .read ih hw hv

/-- What is executed is held by the code. -/
theorem holds_of_executed (h : v ∈ executed d.registry n s) : d.Holds s.inputs s.exec v := by
  induction n generalizing s with
  | zero => cases h
  | succ n ih =>
    cases hexec : s.exec with
    | nil =>
      rw [executed_of_exec_nil hexec] at h
      cases h
    | cons u code =>
      rw [executed_of_exec hexec] at h
      rcases List.mem_cons.1 h with rfl | h
      · exact .code (List.mem_append_left _ v.self_mem_parts)
      · exact (ih h).of_expand

/-- What is executed occurs, at some depth, in the code or in an input. -/
theorem mem_parts_of_executed (h : v ∈ executed d.registry n s) :
    v ∈ Program.parts s.exec ∨ ∃ b ∈ s.inputs, v ∈ b.2.parts := by
  cases holds_of_executed h with
  | code h => exact .inl h
  | read _ hw hv =>
    obtain ⟨-, hlookup⟩ := mem_expansion_sym.1 hw
    exact .inr ⟨_, mem_inputs_of_lookup hlookup, hv⟩

/-! ## All of what the code holds -/

/-- What occurs in a value is the value itself, or it occurs in what is executed in its place. -/
theorem eq_or_mem_parts_expansion (h : w ∈ v.parts) :
    w = v ∨ w ∈ Program.parts (d.expansion inputs v) := by
  cases v with
  | int | text | sym => exact .inl (List.mem_singleton.1 h)
  | block items => exact List.mem_cons.1 h

/-- Everything that occurs in code that is worked off has been executed. -/
theorem mem_executed_of_mem_parts (hdone : ((step d.registry)^[n] s).exec = [])
    (h : v ∈ Program.parts s.exec) : v ∈ executed d.registry n s := by
  induction n generalizing s with
  | zero =>
    have hexec : s.exec = [] := hdone
    rw [hexec] at h
    cases h
  | succ n ih =>
    cases hexec : s.exec with
    | nil =>
      rw [hexec] at h
      cases h
    | cons u code =>
      rw [Function.iterate_succ_apply, step_of_exec hexec] at hdone
      rw [hexec, Program.parts_cons, List.mem_append] at h
      rw [executed_of_exec hexec]
      have hrest (h : v ∈ Program.parts (d.expansion s.inputs u ++ code)) := ih hdone h
      rw [Program.parts_append, List.mem_append] at hrest
      rcases h with h | h
      · rcases eq_or_mem_parts_expansion h with rfl | h
        · exact .head _
        · exact .tail _ (hrest (.inl h))
      · exact .tail _ (hrest (.inr h))

/-- In code that is worked off, what occurs in the expansion of an executed value has been executed
too. -/
theorem mem_executed_of_expansion (hdone : ((step d.registry)^[n] s).exec = [])
    (hu : u ∈ executed d.registry n s) (hv : v ∈ Program.parts (d.expansion s.inputs u)) :
    v ∈ executed d.registry n s := by
  induction n generalizing s with
  | zero => cases hu
  | succ n ih =>
    cases hexec : s.exec with
    | nil =>
      rw [executed_of_exec_nil hexec] at hu
      cases hu
    | cons x code =>
      rw [executed_of_exec hexec] at hu ⊢
      rw [Function.iterate_succ_apply, step_of_exec hexec] at hdone
      rcases List.mem_cons.1 hu with rfl | hu
      · refine .tail _ (mem_executed_of_mem_parts hdone ?_)
        rw [Data.state, Program.parts_append]
        exact List.mem_append_left _ hv
      · exact .tail _ (ih hdone hu hv)

/-- A run that works off its code executes what the code holds, and nothing else. -/
theorem mem_executed_iff_holds (hdone : ((step d.registry)^[n] s).exec = []) :
    v ∈ executed d.registry n s ↔ d.Holds s.inputs s.exec v := by
  refine ⟨holds_of_executed, fun h => ?_⟩
  induction h with
  | code h => exact mem_executed_of_mem_parts hdone h
  | read _ hw hv ih =>
    exact mem_executed_of_expansion hdone ih (Program.mem_parts_iff.2 ⟨_, hw, hv⟩)

end Dialect

end StackBreeder
