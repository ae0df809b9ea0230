import Mathlib.Logic.Function.Iterate
import StackBreeder.Proofs.Machine.Reference

/-!
# Evaluation

The machine works through flat code, one value at a time. Evaluation is the recursion behind it: a
value acts on the data, and then the values of its expansion are evaluated from left to right. The
recursion is well founded on grounded values, and `Dialect.cost` counts its calls.

A grounded program at the front of the code is worked off in as many steps as it costs, with the
data that evaluation gives, and what stands behind it is not touched before that
(`iterate_step_eval`).
-/

namespace StackBreeder.Dialect

section
variable (d : Dialect) (inputs : List (String × Value))

/-- The number of values that are evaluated in the evaluation of a value, itself included. -/
def cost (v : Value) (h : d.Grounded inputs v) : Nat :=
  1 + (d.expansion inputs v).attach.foldr (fun w n => cost w.1 (h.inv w.2) + n) 0
termination_by Subtype.mk (p := fun v => Acc (fun w v => w ∈ d.expansion inputs v) v) v h
decreasing_by exact w.2

/-- The data after the evaluation of a value: it acts, and then the values of its expansion are
evaluated from left to right. -/
def eval (v : Value) (h : d.Grounded inputs v) (σ : Data) : Data :=
  (d.expansion inputs v).attach.foldl (fun σ w => eval w.1 (h.inv w.2) σ) (d.act v σ)
termination_by Subtype.mk (p := fun v => Acc (fun w v => w ∈ d.expansion inputs v) v) v h
decreasing_by exact w.2

/-- The cost of the items of a program together. -/
def costAll (p : Program) (h : ∀ v ∈ p, d.Grounded inputs v) : Nat :=
  p.attach.foldr (fun v n => d.cost inputs v.1 (h v.1 v.2) + n) 0

/-- The data after the evaluation of the items of a program from left to right. -/
def evalAll (p : Program) (h : ∀ v ∈ p, d.Grounded inputs v) (σ : Data) : Data :=
  p.attach.foldl (fun σ v => d.eval inputs v.1 (h v.1 v.2) σ) σ

end

variable {d : Dialect} {inputs : List (String × Value)} {v : Value} {p q : Program}
  {σ σ' σ'' : Data} {n m : Nat}

theorem cost_eq (h : d.Grounded inputs v) :
    d.cost inputs v h = 1 + d.costAll inputs (d.expansion inputs v) fun _ => h.inv := by
  rw [cost]
  rfl

theorem eval_eq (h : d.Grounded inputs v) :
    d.eval inputs v h σ =
      d.evalAll inputs (d.expansion inputs v) (fun _ => h.inv) (d.act v σ) := by
  rw [eval]
  rfl

@[simp] theorem costAll_nil (h : ∀ v ∈ [], d.Grounded inputs v) : d.costAll inputs [] h = 0 := rfl

@[simp] theorem costAll_cons (h : ∀ w ∈ v :: p, d.Grounded inputs w) :
    d.costAll inputs (v :: p) h =
      d.cost inputs v (h v (.head _)) + d.costAll inputs p fun w hw => h w (.tail _ hw) := by
  simp [costAll, List.attach_cons, List.foldr_map]

@[simp] theorem evalAll_nil (h : ∀ v ∈ [], d.Grounded inputs v) : d.evalAll inputs [] h σ = σ := rfl

@[simp] theorem evalAll_cons (h : ∀ w ∈ v :: p, d.Grounded inputs w) :
    d.evalAll inputs (v :: p) h σ =
      d.evalAll inputs p (fun w hw => h w (.tail _ hw)) (d.eval inputs v (h v (.head _)) σ) := by
  simp [evalAll, List.attach_cons, List.foldl_map]

/-! ## Working off code -/

variable (d inputs) in
/-- Code is worked off in `n` steps, whatever stands behind it: after them just that is left, and
before there is always more. -/
def WorksOff (p : Program) (n : Nat) (σ σ' : Data) : Prop :=
  ∀ code : List Value,
    (step d.registry)^[n] (σ.state (p ++ code) inputs) = σ'.state code inputs ∧
    ∀ i < n, ∃ pending ≠ [],
      ((step d.registry)^[i] (σ.state (p ++ code) inputs)).exec = pending ++ code

theorem WorksOff.nil : d.WorksOff inputs [] 0 σ σ := fun _ => ⟨rfl, nofun⟩

/-- Code is worked off part by part. -/
theorem WorksOff.append (hp : d.WorksOff inputs p n σ σ') (hq : d.WorksOff inputs q m σ' σ'') :
    d.WorksOff inputs (p ++ q) (n + m) σ σ'' := by
  intro code
  obtain ⟨hp, hpending⟩ := hp (q ++ code)
  obtain ⟨hq, hpending'⟩ := hq code
  have hreach (i : Nat) : (step d.registry)^[n + i] (σ.state (p ++ (q ++ code)) inputs) =
      (step d.registry)^[i] (σ'.state (q ++ code) inputs) := by
    rw [Nat.add_comm, Function.iterate_add_apply, hp]
  rw [List.append_assoc]
  refine ⟨by rw [hreach, hq], fun i hi => ?_⟩
  rcases Nat.lt_or_ge i n with hlt | hge
  · obtain ⟨pending, hne, hexec⟩ := hpending i hlt
    exact ⟨pending ++ q, by simp [hne], by simp [hexec]⟩
  · obtain ⟨i, rfl⟩ := Nat.exists_eq_add_of_le hge
    rw [hreach]
    exact hpending' i (by omega)

/-- A value is worked off by a step and the working off of its expansion. -/
theorem WorksOff.expand (h : d.WorksOff inputs (d.expansion inputs v) n (d.act v σ) σ') :
    d.WorksOff inputs [v] (1 + n) σ σ' := by
  intro code
  obtain ⟨h, hpending⟩ := h code
  have hreach (i : Nat) : (step d.registry)^[1 + i] (σ.state ([v] ++ code) inputs) =
      (step d.registry)^[i] ((d.act v σ).state (d.expansion inputs v ++ code) inputs) := by
    rw [Nat.add_comm, Function.iterate_succ_apply, List.singleton_append, step_cons]
  refine ⟨by rw [hreach, h], fun i hi => ?_⟩
  cases i with
  | zero => exact ⟨[v], by simp, rfl⟩
  | succ i =>
    rw [Nat.add_comm i, hreach]
    exact hpending i (by omega)

/-- A program is worked off at its cost if its items are. -/
theorem worksOff_evalAll_of_items (h : ∀ v ∈ p, d.Grounded inputs v)
    (hitems : ∀ v (hv : v ∈ p) σ,
      d.WorksOff inputs [v] (d.cost inputs v (h v hv)) σ (d.eval inputs v (h v hv) σ)) (σ : Data) :
    d.WorksOff inputs p (d.costAll inputs p h) σ (d.evalAll inputs p h σ) := by
  induction p generalizing σ with
  | nil => exact .nil
  | cons v p ih =>
    rw [costAll_cons, evalAll_cons]
    exact (hitems v (.head _) σ).append (ih _ (fun w hw => hitems w (.tail _ hw)) _)

/-- A grounded value is worked off at its cost, with the data that its evaluation gives. -/
theorem worksOff_eval (h : d.Grounded inputs v) (σ : Data) :
    d.WorksOff inputs [v] (d.cost inputs v h) σ (d.eval inputs v h σ) := by
  induction h generalizing σ with
  | intro v h ih =>
    have hv : d.Grounded inputs v := ⟨v, h⟩
    show d.WorksOff inputs [v] (d.cost inputs v hv) σ (d.eval inputs v hv σ)
    rw [cost_eq, eval_eq]
    exact (worksOff_evalAll_of_items _ ih _).expand

/-- A grounded program is worked off at its cost, with the data that its evaluation gives. -/
theorem worksOff_evalAll (h : ∀ v ∈ p, d.Grounded inputs v) (σ : Data) :
    d.WorksOff inputs p (d.costAll inputs p h) σ (d.evalAll inputs p h σ) :=
  worksOff_evalAll_of_items h (fun v hv σ => worksOff_eval (h v hv) σ) σ

/-- The recursion of evaluation is well founded on the programs whose symbols start no endless
chain of references. In front of any other code such a program is worked off in exactly as many
steps as it costs: the data are then those of its evaluation, the inputs are the same, and the other
code is all that is left. At every step before that, more than the other code is left, and the other
code ends it. -/
theorem iterate_step_eval (d : Dialect) (s : State) (p rest : Program) :
    ((∀ v ∈ p, d.Grounded s.inputs v) ↔
      ¬ ∃ name, .sym name ∈ p.parts ∧ d.Endless s.inputs name) ∧
    ∀ h : ∀ v ∈ p, d.Grounded s.inputs v,
      (step d.registry)^[d.costAll s.inputs p h] { s with exec := p ++ rest } =
        { exec := rest
          integer := (d.evalAll s.inputs p h s.data).integer
          string := (d.evalAll s.inputs p h s.data).string
          inputs := s.inputs } ∧
      ∀ i < d.costAll s.inputs p h, ∃ pending ≠ [],
        ((step d.registry)^[i] { s with exec := p ++ rest }).exec = pending ++ rest := by
  refine ⟨grounded_iff, fun h => ?_⟩
  exact worksOff_evalAll h s.data rest

/-- An operator from an input works on an integer of the program, and a nested symbol without
meaning costs a step. -/
theorem iterate_step_eval_nested :
    ∃ h : ∀ v ∈ [.int 5, .sym "in1", .block [.text "a", .sym "nope"]],
        standard.Grounded [("in1", .block [.int 2, .sym "integer_*"])] v,
      standard.costAll _ _ h = 8 ∧
      (step .standard)^[8]
          { exec := [.int 5, .sym "in1", .block [.text "a", .sym "nope"]] ++ [.sym "in1"]
            integer := [7]
            inputs := [("in1", .block [.int 2, .sym "integer_*"])] } =
        { exec := [.sym "in1"]
          integer := [10, 7]
          string := ["a"]
          inputs := [("in1", .block [.int 2, .sym "integer_*"])] } := by
  have hin : standard.find? "in1" = some (.input "in1") := by decide
  have htimes : standard.find? "integer_*" = some (.operator .times) := by decide
  have hnope : standard.find? "nope" = none := by decide
  have h : ∀ v ∈ [.int 5, .sym "in1", .block [.text "a", .sym "nope"]],
      standard.Grounded [("in1", .block [.int 2, .sym "integer_*"])] v := by
    simp [grounded_sym_iff, htimes, hnope]
  have hcost : standard.costAll _ _ h = 8 := by
    simp [cost_eq, expansion, hin, htimes, hnope]
  have hrun := ((iterate_step_eval standard
    { integer := [7], inputs := [("in1", .block [.int 2, .sym "integer_*"])] } _ [.sym "in1"]).2 h).1
  refine ⟨h, hcost, ?_⟩
  rw [hcost] at hrun
  refine hrun.trans ?_
  simp [eval_eq, expansion, act, State.data, Data.combine, Operator.apply, hin, htimes, hnope]

end StackBreeder.Dialect
