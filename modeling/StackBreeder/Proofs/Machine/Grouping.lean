import StackBreeder.Proofs.Machine.Halting

/-!
# Grouping

A block does nothing but run its items, so a program does what the list of its other parts does,
with all blocks spliced inline (`Program.spliced`). Evaluation gives the same data for both
(`Dialect.evalAll_spliced`), and only costs one more for each block (`Dialect.costAll_spliced`). Two
programs that differ in their grouping alone therefore halt together and in the same state
(`Dialect.run_grouping`). The values of inputs are not touched by this: the blocks in them are
executed, and counted, whenever the inputs are read.
-/

namespace StackBreeder

mutual

/-- What a value is when all blocks in it are spliced inline, in the order of reading. -/
def Value.spliced : Value → List Value
  | .int n => [.int n]
  | .text content => [.text content]
  | .sym name => [.sym name]
  | .block items => Value.splicedItems items

/-- `Value.spliced` of the items of a list, one after the other. -/
def Value.splicedItems : List Value → List Value
  | [] => []
  | v :: vs => v.spliced ++ Value.splicedItems vs

end

/-- A program with all blocks in it spliced inline. -/
def Program.spliced (p : Program) : Program := Value.splicedItems p

def Value.isBlock : Value → Bool
  | .block _ => true
  | _ => false

/-- The number of the blocks in a program, at any depth. -/
def Program.blocks (p : Program) : Nat := p.parts.countP Value.isBlock

section
variable {v w : Value} {p : Program} {items : List Value}

@[simp] theorem Program.spliced_nil : Program.spliced [] = [] := rfl

@[simp] theorem Program.spliced_cons : Program.spliced (v :: p) = v.spliced ++ p.spliced := rfl

@[simp] theorem Value.spliced_block : (Value.block items).spliced = Program.spliced items := rfl

theorem Program.mem_spliced_iff : w ∈ Program.spliced p ↔ ∃ v ∈ p, w ∈ v.spliced := by
  induction p with
  | nil => simp
  | cons v p ih => simp [ih]

@[simp] theorem Program.blocks_nil : Program.blocks [] = 0 := rfl

@[simp] theorem Program.blocks_cons :
    Program.blocks (v :: p) = v.parts.countP Value.isBlock + p.blocks :=
  List.countP_append

theorem Value.countP_parts_block :
    (Value.block items).parts.countP isBlock = 1 + Program.blocks items := by
  rw [parts_block, List.countP_cons_of_pos rfl, Program.blocks, Nat.add_comm]

end

namespace Dialect

variable {d : Dialect} {inputs : List (String × Value)} {v : Value} {p q : Program} {σ : Data}

theorem costAll_append (h : ∀ v ∈ p ++ q, d.Grounded inputs v) :
    d.costAll inputs (p ++ q) h =
      d.costAll inputs p (fun v hv => h v (List.mem_append_left _ hv)) +
        d.costAll inputs q fun v hv => h v (List.mem_append_right _ hv) := by
  induction p with
  | nil => simp
  | cons v p ih =>
    have hcons := ih fun w hw => h w (.tail _ hw)
    simp only [List.cons_append, costAll_cons, hcons, Nat.add_assoc]

theorem evalAll_append (h : ∀ v ∈ p ++ q, d.Grounded inputs v) (σ : Data) :
    d.evalAll inputs (p ++ q) h σ =
      d.evalAll inputs q (fun v hv => h v (List.mem_append_right _ hv))
        (d.evalAll inputs p (fun v hv => h v (List.mem_append_left _ hv)) σ) := by
  induction p generalizing σ with
  | nil => rfl
  | cons v p ih =>
    have hcons := ih fun w hw => h w (.tail _ hw)
    simp only [List.cons_append, evalAll_cons, hcons]

/-- A value is grounded exactly if it is so with all blocks spliced inline. -/
theorem grounded_spliced_iff :
    (∀ w ∈ v.spliced, d.Grounded inputs w) ↔ d.Grounded inputs v := by
  induction v using Value.induction with
  | int | text | sym => exact List.forall_mem_singleton
  | block items ih =>
    simp only [Value.spliced_block, Program.mem_spliced_iff, grounded_block]
    constructor
    · intro h v hv
      exact (ih v hv).1 fun w hw => h w ⟨v, hv, hw⟩
    · rintro h w ⟨v, hv, hw⟩
      exact (ih v hv).2 (h v hv) w hw

theorem forall_grounded_spliced_iff :
    (∀ w ∈ p.spliced, d.Grounded inputs w) ↔ ∀ v ∈ p, d.Grounded inputs v := by
  have hblock : (∀ w ∈ (Value.block p).spliced, d.Grounded inputs w) ↔
      d.Grounded inputs (.block p) := grounded_spliced_iff
  rwa [grounded_block] at hblock

/-- Evaluation of a program is that of the spliced one, at the cost of one more for each block, if
it is so for each item. -/
theorem eval_spliced_of_items (h : ∀ v ∈ p, d.Grounded inputs v)
    (hs : ∀ w ∈ p.spliced, d.Grounded inputs w)
    (hitems : ∀ v (hv : v ∈ p) (hs : ∀ w ∈ v.spliced, d.Grounded inputs w),
      d.costAll inputs v.spliced hs + v.parts.countP Value.isBlock = d.cost inputs v (h v hv) ∧
      ∀ σ, d.evalAll inputs v.spliced hs σ = d.eval inputs v (h v hv) σ) :
    d.costAll inputs p.spliced hs + p.blocks = d.costAll inputs p h ∧
      ∀ σ, d.evalAll inputs p.spliced hs σ = d.evalAll inputs p h σ := by
  induction p with
  | nil => exact ⟨rfl, fun σ => rfl⟩
  | cons v p ih =>
    obtain ⟨hcost, heval⟩ := hitems v (.head _) fun w hw => hs w (List.mem_append_left _ hw)
    obtain ⟨hcosts, hevals⟩ := ih (fun w hw => h w (.tail _ hw))
      (fun w hw => hs w (List.mem_append_right _ hw)) fun w hw => hitems w (.tail _ hw)
    refine ⟨?_, fun σ => ?_⟩
    · simp only [Program.spliced_cons, costAll_append, Program.blocks_cons, costAll_cons]
      omega
    · simp only [Program.spliced_cons, evalAll_append, evalAll_cons, heval, hevals]

/-- Evaluation of a value is that of its spliced items, at the cost of one more for each block. -/
theorem eval_spliced (h : d.Grounded inputs v) (hs : ∀ w ∈ v.spliced, d.Grounded inputs w) :
    d.costAll inputs v.spliced hs + v.parts.countP Value.isBlock = d.cost inputs v h ∧
      ∀ σ, d.evalAll inputs v.spliced hs σ = d.eval inputs v h σ := by
  induction v using Value.induction with
  | int | text | sym => exact ⟨costAll_cons hs, fun σ => evalAll_cons hs⟩
  | block items ih =>
    have hitems := grounded_block.1 h
    obtain ⟨hcost, heval⟩ := eval_spliced_of_items hitems hs fun v hv => ih v hv (hitems v hv)
    refine ⟨?_, fun σ => ?_⟩
    · rw [Value.countP_parts_block, cost_eq]
      have hexpansion : d.costAll inputs (d.expansion inputs (.block items)) (fun _ => h.inv) =
          d.costAll inputs items hitems := rfl
      rw [hexpansion, ← hcost]
      simp only [Value.spliced_block]
      omega
    · rw [eval_eq]
      exact heval σ

/-- A program costs what it does with all blocks spliced inline, and one more for each block. -/
theorem costAll_spliced (h : ∀ v ∈ p, d.Grounded inputs v)
    (hs : ∀ w ∈ p.spliced, d.Grounded inputs w) :
    d.costAll inputs p h = d.costAll inputs p.spliced hs + p.blocks :=
  (eval_spliced_of_items h hs fun v hv => eval_spliced (h v hv)).1.symm

/-- Evaluation gives the same data with all blocks spliced inline. -/
theorem evalAll_spliced (h : ∀ v ∈ p, d.Grounded inputs v)
    (hs : ∀ w ∈ p.spliced, d.Grounded inputs w) (σ : Data) :
    d.evalAll inputs p h σ = d.evalAll inputs p.spliced hs σ :=
  ((eval_spliced_of_items h hs fun v hv => eval_spliced (h v hv)).2 σ).symm

/-- Let two programs be the same list when all blocks in them are spliced inline, and let them be
loaded into a state. Then one of them halts with some fuel exactly if the other one does. If they
halt, the states in the end are equal, and the numbers of steps differ by as much as the numbers of
blocks, those at any depth and those without items included. -/
theorem run_grouping (d : Dialect) (s : State) (p q : Program) (h : p.spliced = q.spliced) :
    ((∃ fuel n, (run d.registry fuel (s.load p)).2 = .halted n) ↔
      ∃ fuel n, (run d.registry fuel (s.load q)).2 = .halted n) ∧
    ∀ fuel fuel' n m, (run d.registry fuel (s.load p)).2 = .halted n →
      (run d.registry fuel' (s.load q)).2 = .halted m →
      (run d.registry fuel (s.load p)).1 = (run d.registry fuel' (s.load q)).1 ∧
      (n : Int) - m = p.blocks - q.blocks := by
  refine ⟨?_, fun fuel fuel' n m hn hm => ?_⟩
  · simp only [exists_halted_iff, State.load, List.forall_mem_append]
    rw [← forall_grounded_spliced_iff, h, forall_grounded_spliced_iff]
  · obtain ⟨hp, rfl, hfinal⟩ := run_of_halted hn
    obtain ⟨hq, rfl, hfinal'⟩ := run_of_halted hm
    have hps : ∀ w ∈ p.spliced, d.Grounded s.inputs w :=
      forall_grounded_spliced_iff.2 fun v hv => hp v (List.mem_append_left _ hv)
    have hqs : ∀ w ∈ q.spliced, d.Grounded s.inputs w := h ▸ hps
    refine ⟨?_, ?_⟩
    · rw [hfinal, hfinal']
      simp only [State.load, evalAll_append, evalAll_spliced _ hps, evalAll_spliced _ hqs, h]
      rfl
    · simp only [State.load, costAll_append, costAll_spliced _ hps, costAll_spliced _ hqs, h]
      omega

/-- Two groupings of one program, in front of code that reads an input with a block in it. The first
one has two blocks, one of them without items, and the other one has none. -/
theorem run_grouping_nested :
    Program.spliced [.int 5, .block [.sym "in1", .block []], .sym "integer_*"] =
      Program.spliced [.int 5, .sym "in1", .sym "integer_*"] ∧
    (run .standard 20
      (State.load { exec := [.sym "in1"], inputs := [("in1", .block [.int 2, .int 3])] }
        [.int 5, .block [.sym "in1", .block []], .sym "integer_*"])).2 = .halted 12 ∧
    (run .standard 10
      (State.load { exec := [.sym "in1"], inputs := [("in1", .block [.int 2, .int 3])] }
        [.int 5, .sym "in1", .sym "integer_*"])).2 = .halted 10 ∧
    (run .standard 20
      (State.load { exec := [.sym "in1"], inputs := [("in1", .block [.int 2, .int 3])] }
        [.int 5, .block [.sym "in1", .block []], .sym "integer_*"])).1 =
      (run .standard 10
        (State.load { exec := [.sym "in1"], inputs := [("in1", .block [.int 2, .int 3])] }
          [.int 5, .sym "in1", .sym "integer_*"])).1 := by
  have hspliced : Program.spliced [.int 5, .block [.sym "in1", .block []], .sym "integer_*"] =
      Program.spliced [.int 5, .sym "in1", .sym "integer_*"] := rfl
  have hblocks : (run .standard 20
      (State.load { exec := [.sym "in1"], inputs := [("in1", .block [.int 2, .int 3])] }
        [.int 5, .block [.sym "in1", .block []], .sym "integer_*"])).2 = .halted 12 := by decide
  have hplain : (run .standard 10
      (State.load { exec := [.sym "in1"], inputs := [("in1", .block [.int 2, .int 3])] }
        [.int 5, .sym "in1", .sym "integer_*"])).2 = .halted 10 := by decide
  obtain ⟨-, hsame⟩ := run_grouping standard
    { exec := [.sym "in1"], inputs := [("in1", .block [.int 2, .int 3])] } _ _ hspliced
  exact ⟨hspliced, hblocks, hplain, (hsame 20 10 12 10 hblocks hplain).1⟩

end Dialect

end StackBreeder
