import StackBreeder.Proofs.Machine.Control
import StackBreeder.Proofs.Machine.Quotient
import StackBreeder.Proofs.Regression.Solution

/-!
# The magnitude of results

Two integers within powers of `M` make, under every operator, an integer within the product of the
powers, if `M` is at least two (`Operator.abs_apply_le`). So each integer on the stack can be given
a weight, the power of `M` that it is within: an integer that is executed comes with the weight one,
and the result of an operator has the weights of its operands together. The total of the weights
(`Weighted`) then is the depth at the start with one more for each integer that is executed, and no
single integer has more than that (`integer_magnitude`).
-/

namespace StackBreeder

variable {M : Int} {v w : Nat}

/-- An operator takes integers within two powers to one within their product. -/
theorem Operator.abs_apply_le (hM : 2 ≤ M) (o : Operator) {a b : Int} (hv : 0 < v) (hw : 0 < w)
    (ha : |a| ≤ M ^ v) (hb : |b| ≤ M ^ w) : |o.apply a b| ≤ M ^ (v + w) := by
  have hone : 1 ≤ M := by omega
  have hpowv : 2 ≤ M ^ v := hM.trans (le_self_pow₀ hone hv.ne')
  have hpoww : 2 ≤ M ^ w := hM.trans (le_self_pow₀ hone hw.ne')
  have hsum : |a| + |b| ≤ M ^ (v + w) := by
    calc |a| + |b| ≤ M ^ v + M ^ w := add_le_add ha hb
      _ ≤ M ^ v * M ^ w := add_le_mul hpowv hpoww
      _ = M ^ (v + w) := (pow_add M v w).symm
  cases o with
  | plus => exact (abs_add_le a b).trans hsum
  | minus => exact (abs_sub a b).trans hsum
  | times =>
    calc |a * b| = |a| * |b| := abs_mul a b
      _ ≤ M ^ v * M ^ w := mul_le_mul ha hb (abs_nonneg b) (by omega)
      _ = M ^ (v + w) := (pow_add M v w).symm
  | quotient =>
    calc |protectedQuotient a b| ≤ |a| := abs_protectedQuotient_le a b
      _ ≤ M ^ v := ha
      _ ≤ M ^ (v + w) := pow_le_pow_right₀ hone (Nat.le_add_right v w)

/-- Each of the integers is within the power of `M` of a weight of its own; the number is the total
of the weights. -/
inductive Weighted (M : Int) : List Int → Nat → Prop
  | nil : Weighted M [] 0
  | cons {n : Int} {ns : List Int} {total w : Nat} (hw : 0 < w) (hn : |n| ≤ M ^ w)
    (h : Weighted M ns total) : Weighted M (n :: ns) (total + w)

namespace Weighted

variable {n : Int} {ns : List Int} {total : Nat}

/-- Integers within `M` have the weight one each. -/
theorem of_forall (h : ∀ n ∈ ns, |n| ≤ M) : Weighted M ns ns.length := by
  induction ns with
  | nil => exact .nil
  | cons n ns ih =>
    obtain ⟨hn, hns⟩ := List.forall_mem_cons.1 h
    exact .cons one_pos (by rwa [pow_one]) (ih hns)

/-- No integer has more than the total weight. -/
theorem abs_le (hM : 1 ≤ M) (h : Weighted M ns total) : ∀ n ∈ ns, |n| ≤ M ^ total := by
  induction h with
  | nil => nofun
  | @cons n ns total w hw hn _ ih =>
    refine List.forall_mem_cons.2 ⟨?_, fun m hm => ?_⟩
    · exact hn.trans (pow_le_pow_right₀ hM (Nat.le_add_left w total))
    · exact (ih m hm).trans (pow_le_pow_right₀ hM (Nat.le_add_right total w))

/-- An operator keeps the total weight. -/
theorem combine (hM : 2 ≤ M) {σ : Data} (h : Weighted M σ.integer total) (o : Operator) :
    Weighted M (σ.combine o).integer total := by
  obtain ⟨integer, string⟩ := σ
  cases h with
  | nil => exact .nil
  | @cons b _ _ w hw hb hrest =>
    cases hrest with
    | nil => exact .cons hw hb .nil
    | @cons a rest total v hv ha hrest =>
      rw [Nat.add_assoc]
      exact .cons (Nat.add_pos_left hv w) (o.abs_apply_le hM hv hw ha hb) hrest

end Weighted

namespace Dialect

variable {d : Dialect} {σ : Data} {total : Nat}

/-- A value that acts adds to the total weight only if it is an integer. -/
theorem weighted_act (hM : 2 ≤ M) (h : Weighted M σ.integer total) {v : Value}
    (hv : ∀ n, v = .int n → |n| ≤ M) :
    Weighted M (d.act v σ).integer (total + if v.kind = .int then 1 else 0) := by
  cases v with
  | int n =>
    have hn : |n| ≤ M ^ 1 := by
      rw [pow_one]
      exact hv n rfl
    exact .cons one_pos hn h
  | text | block => exact h
  | sym name =>
    simp only [act]
    split
    · exact h.combine hM _
    · exact h

/-- The integers among values that act are what the total weight grows by. -/
theorem weighted_actAll (hM : 2 ≤ M) {vs : List Value} (h : Weighted M σ.integer total)
    (hvs : ∀ n, .int n ∈ vs → |n| ≤ M) :
    Weighted M (d.actAll vs σ).integer (total + vs.countP (·.kind = .int)) := by
  induction vs generalizing σ total with
  | nil => exact h
  | cons v vs ih =>
    have hact := weighted_act (d := d) hM h fun n hn => hvs n (hn ▸ .head _)
    have hrest := ih hact fun n hn => hvs n (.tail _ hn)
    rw [List.countP_cons]
    simpa [Nat.add_assoc, Nat.add_comm] using hrest

end Dialect

/-- How many integers the next `n` steps take off the code. -/
def integersExecuted (reg : Registry) (n : Nat) (s : State) : Nat :=
  (executed reg n s).countP (·.kind = .int)

/-- The integers of a state are within `M`: those on the stack, and those that occur, at any depth,
in the code and in the inputs. -/
structure State.IsWithin (M : Int) (s : State) : Prop where
  integer : ∀ n ∈ s.integer, |n| ≤ M
  exec : ∀ n, .int n ∈ Program.parts s.exec → |n| ≤ M
  inputs : ∀ b ∈ s.inputs, ∀ n, .int n ∈ b.2.parts → |n| ≤ M

/-- The total weight after a number of steps. -/
theorem Dialect.weighted_iterate_step (d : Dialect) (hM : 2 ≤ M) {s : State} (h : s.IsWithin M)
    (n : Nat) :
    Weighted M ((step d.registry)^[n] s).integer
      (s.integer.length + integersExecuted d.registry n s) := by
  obtain ⟨vs, code, hsteps⟩ := d.exists_iterate_step s.inputs n s.exec
  obtain ⟨hexecuted, hstate⟩ := hsteps s.data
  have hs : s.data.state s.exec s.inputs = s := rfl
  rw [hs] at hexecuted hstate
  rw [integersExecuted, hexecuted, hstate]
  refine d.weighted_actAll hM (.of_forall h.integer) fun n hn => ?_
  rw [← hexecuted] at hn
  rcases mem_parts_of_executed hn with hn | ⟨b, hb, hn⟩
  · exact h.exec n hn
  · exact h.inputs b hb n hn

/-- A program that is loaded with its inputs is within `M` if the program and the inputs are. -/
theorem State.isWithin_load {p : Program} {inputs : List Value}
    (hp : ∀ n, .int n ∈ p.parts → |n| ≤ M)
    (hinputs : ∀ n, .int n ∈ Program.parts inputs → |n| ≤ M) :
    ((State.empty.bindAll inputs).load p).IsWithin M := by
  rw [bindAll_eq]
  refine ⟨nofun, fun n hn => hp n ?_, fun b hb n hn => hinputs n ?_⟩
  · simpa [load, empty] using hn
  · obtain ⟨i, hi, rfl⟩ := List.mem_mapIdx.1 hb
    exact Program.mem_parts_iff.2 ⟨inputs[i], List.getElem_mem hi, hn⟩

/-- Let no integer on the stack, or at any depth in the code and in the inputs, exceed `M` in
magnitude. After every number of steps the integers on the stack are within the power of `M` that
counts the depth of the stack at the start and the integers that have been executed. The answer of a
program on a case is within the power of `M` that counts the integers that its run executes. -/
theorem integer_magnitude (hM : 2 ≤ M) :
    (∀ (d : Dialect) (s : State), s.IsWithin M →
      ∀ n, ∀ x ∈ ((step d.registry)^[n] s).integer,
        |x| ≤ M ^ (s.integer.length + integersExecuted d.registry n s)) ∧
    ∀ (r : Regression) (p : Program) (c : Case),
      (∀ n, .int n ∈ p.parts → |n| ≤ M) → (∀ n, .int n ∈ Program.parts c.inputs → |n| ≤ M) →
      ∀ x, r.answer p c = .ok x →
        |x| ≤ M ^ integersExecuted .standard
          (runProgram .standard r.fuel .empty c.inputs p).2.steps
          ((State.empty.bindAll c.inputs).load p) := by
  have hone : 1 ≤ M := by omega
  have hsteps (d : Dialect) (s : State) (h : s.IsWithin M) (n : Nat) :
      ∀ x ∈ ((step d.registry)^[n] s).integer,
        |x| ≤ M ^ (s.integer.length + integersExecuted d.registry n s) :=
    (d.weighted_iterate_step hM h n).abs_le hone
  refine ⟨hsteps, fun r p c hp hinputs x hx => ?_⟩
  obtain ⟨final, steps, hrun, htop⟩ := Regression.answer_eq_ok_iff.1 hx
  have hfinal := run_fst .standard r.fuel ((State.empty.bindAll c.inputs).load p)
  have hx := hsteps .standard _ (State.isWithin_load hp hinputs) steps x
  rw [runProgram] at hrun
  rw [hrun, Outcome.steps] at hfinal
  have hempty : ((State.empty.bindAll c.inputs).load p).integer = [] := by
    rw [State.bindAll_eq]
    rfl
  rw [Dialect.registry_standard, ← hfinal, hempty, List.length_nil, Nat.zero_add] at hx
  rw [runProgram, hrun]
  exact hx (List.mem_of_head? htop)

/-- Products meet the bound: one integer on the stack and two that are executed, of which one comes
from an input, make the third power; on a case, the two make the second. -/
theorem integer_magnitude_product :
    (2 : Int) ≤ 3 ∧
    State.IsWithin 3
      { exec := [.int 3, .sym "in1", .sym "integer_*", .sym "integer_*"]
        integer := [3]
        inputs := [("in1", .int (-3))] } ∧
    ((step .standard)^[5]
        { exec := [.int 3, .sym "in1", .sym "integer_*", .sym "integer_*"]
          integer := [3]
          inputs := [("in1", .int (-3))] }).integer = [-27] ∧
    integersExecuted .standard 5
      { exec := [.int 3, .sym "in1", .sym "integer_*", .sym "integer_*"]
        integer := [3]
        inputs := [("in1", .int (-3))] } = 2 ∧
    |(-27 : Int)| ≤ 3 ^ (1 + 2) ∧
    Regression.answer { cases := [] } [.int 3, .sym "in1", .sym "integer_*"] (.ofInt (-3) 0) =
      .ok (-9) ∧
    |(-9 : Int)| ≤ 3 ^ 2 := by
  have htwo : (2 : Int) ≤ 3 := by decide
  obtain ⟨hsteps, hanswer⟩ := integer_magnitude htwo
  have hwithin : State.IsWithin 3
      { exec := [.int 3, .sym "in1", .sym "integer_*", .sym "integer_*"]
        integer := [3]
        inputs := [("in1", .int (-3))] } :=
    ⟨by simp, by simp [Value.parts], by simp [Value.parts]⟩
  have hresult : ((step .standard)^[5]
      { exec := [.int 3, .sym "in1", .sym "integer_*", .sym "integer_*"]
        integer := [3]
        inputs := [("in1", .int (-3))] }).integer = [-27] := by decide
  have hnine : Regression.answer { cases := [] } [.int 3, .sym "in1", .sym "integer_*"]
      (.ofInt (-3) 0) = .ok (-9) := by decide
  refine ⟨htwo, hwithin, hresult, by decide, ?_, hnine, ?_⟩
  · exact hsteps .standard _ hwithin 5 (-27) (hresult ▸ .head _)
  · exact hanswer _ _ _ (by simp [Value.parts]) (by simp [Case.ofInt, Value.parts]) (-9) hnine

end StackBreeder
