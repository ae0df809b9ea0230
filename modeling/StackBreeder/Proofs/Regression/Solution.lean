import Mathlib.Algebra.Order.BigOperators.Group.List
import Mathlib.Data.List.Forall2
import StackBreeder.Proofs.Breeding.Fittest
import StackBreeder.Regression.Case

/-!
# Solutions of regressions

If every fault costs something, the errors of a program are not negative, and a program has the
total error zero exactly if its answer on every case is the expected one
(`total_evaluator_eq_zero_iff`). What a single error is depends on how the run on its case ends
(`Regression.IsCaseError`), and the errors are listed in the order of the cases
(`Regression.evaluator_scores`).
-/

namespace StackBreeder

section
variable {errors : List Int}

theorem totalError_nonneg (h : ∀ e ∈ errors, 0 ≤ e) : 0 ≤ totalError errors :=
  List.sum_nonneg h

/-- Errors that are not negative add up to zero only if there are none. -/
theorem totalError_eq_zero_iff (h : ∀ e ∈ errors, 0 ≤ e) :
    totalError errors = 0 ↔ ∀ e ∈ errors, e = 0 := by
  induction errors with
  | nil => simp [totalError]
  | cons e errors ih =>
    obtain ⟨he, herrors⟩ := List.forall_mem_cons.1 h
    have hrest := totalError_nonneg herrors
    have hcons : totalError (e :: errors) = e + totalError errors := rfl
    rw [hcons, List.forall_mem_cons, ← ih herrors]
    omega

end

namespace Regression

/-- Every fault costs something. -/
structure Charges (r : Regression) : Prop where
  penalty_pos : 0 < r.penalty
  timeoutPenalty_pos : ∀ n ∈ r.timeoutPenalty, 0 < n

variable {r : Regression} {p : Program} {c : Case}

/-- A program has an answer on a case if it halts with an integer on top. -/
theorem answer_eq_ok_iff {n : Int} :
    r.answer p c = .ok n ↔ ∃ final steps,
      runProgram .standard r.fuel .empty c.inputs p = (final, .halted steps) ∧
        final.top? .integer = some n := by
  rw [answer]
  constructor
  · intro h
    split at h
    · cases h
    · next final steps hrun =>
      split at h
      · next m htop =>
        cases h
        exact ⟨final, steps, hrun, htop⟩
      · cases h
  · rintro ⟨final, steps, hrun, htop⟩
    simp only [hrun, htop]

/-- The error of an answer is its distance from the expected one. -/
theorem caseError_of_ok {n : Int} (h : r.answer p c = .ok n) :
    r.caseError p c = (c.expected - n).natAbs := by
  rw [caseError, h]

theorem caseError_pos_of_error (hr : r.Charges) {fault : Fault} (h : r.answer p c = .error fault) :
    0 < r.caseError p c := by
  rw [caseError, h]
  cases fault with
  | noOutput => exact hr.penalty_pos
  | timeout =>
    cases hcharge : r.timeoutPenalty with
    | none => exact hr.penalty_pos
    | some n => exact hr.timeoutPenalty_pos n hcharge

theorem caseError_nonneg (hr : r.Charges) : 0 ≤ r.caseError p c := by
  cases h : r.answer p c with
  | ok n =>
    rw [caseError_of_ok h]
    exact Int.natCast_nonneg _
  | error fault => exact Int.le_of_lt (caseError_pos_of_error hr h)

/-- Only the expected answer is without an error. -/
theorem caseError_eq_zero_iff (hr : r.Charges) :
    r.caseError p c = 0 ↔ r.answer p c = .ok c.expected := by
  cases h : r.answer p c with
  | ok n =>
    rw [caseError_of_ok h, Except.ok.injEq]
    omega
  | error fault =>
    have hpos := caseError_pos_of_error hr h
    simpa using Int.ne_of_gt hpos

theorem total_evaluator_nonneg (hr : r.Charges) (p : Program) : 0 ≤ (r.evaluator p).total :=
  totalError_nonneg (List.forall_mem_map.2 fun _ _ => caseError_nonneg hr)

/-- The total error is zero exactly if every answer is the expected one. -/
theorem total_evaluator_eq_zero_iff (hr : r.Charges) (p : Program) :
    (r.evaluator p).total = 0 ↔ ∀ c ∈ r.cases, r.answer p c = .ok c.expected := by
  have hnonneg : ∀ e ∈ r.cases.map (r.caseError p), 0 ≤ e :=
    List.forall_mem_map.2 fun _ _ => caseError_nonneg hr
  have hzero := totalError_eq_zero_iff hnonneg
  rw [List.forall_mem_map] at hzero
  exact hzero.trans (forall₂_congr fun c _ => caseError_eq_zero_iff hr)

/-! ## What the errors of a program say -/

/-- The error of a program on a case, by how its run on the case ends: with an integer on top, which
counts by its distance from the expected one, without an integer, or out of fuel. -/
inductive IsCaseError (r : Regression) (p : Program) (c : Case) : Int → Prop
  | answer {final : State} {steps : Nat} {n : Int}
      (hrun : runProgram .standard r.fuel .empty c.inputs p = (final, .halted steps))
      (htop : final.top? .integer = some n) : IsCaseError r p c |c.expected - n|
  | noOutput {final : State} {steps : Nat}
      (hrun : runProgram .standard r.fuel .empty c.inputs p = (final, .halted steps))
      (htop : final.top? .integer = none) : IsCaseError r p c r.penalty
  | timeout {final : State} {steps : Nat}
      (hrun : runProgram .standard r.fuel .empty c.inputs p = (final, .exhausted steps)) :
      IsCaseError r p c (r.timeoutPenalty.getD r.penalty)

theorem isCaseError_caseError (r : Regression) (p : Program) (c : Case) :
    r.IsCaseError p c (r.caseError p c) := by
  rw [caseError, answer]
  rcases hrun : runProgram .standard r.fuel .empty c.inputs p with ⟨final, steps | steps⟩
  · cases htop : final.top? .integer with
    | some n =>
      simp only [htop, ← Int.abs_eq_natAbs]
      exact .answer hrun htop
    | none =>
      simp only [htop]
      exact .noOutput hrun htop
  · exact .timeout hrun

/-- If every fault costs something, the errors of a program are those of its runs on the cases, one
for each case in their order. None is negative, and the total is their sum; it is zero exactly if
the program halts on every case with the expected integer on top. -/
theorem evaluator_scores (r : Regression) (hr : r.Charges) (p : Program) :
    List.Forall₂ (r.IsCaseError p) r.cases (r.evaluator p).errors ∧
    (∀ e ∈ (r.evaluator p).errors, 0 ≤ e) ∧
    (r.evaluator p).total = (r.evaluator p).errors.sum ∧
    ((r.evaluator p).total = 0 ↔ ∀ c ∈ r.cases, ∃ final steps,
      runProgram .standard r.fuel .empty c.inputs p = (final, .halted steps) ∧
        final.top? .integer = some c.expected) := by
  refine ⟨?_, ?_, totalError_eq_sum _, ?_⟩
  · exact List.forall₂_map_right_iff.2 (List.forall₂_same.2 fun c _ => r.isCaseError_caseError p c)
  · exact List.forall_mem_map.2 fun c _ => caseError_nonneg hr
  · rw [total_evaluator_eq_zero_iff hr]
    exact forall₂_congr fun c _ => answer_eq_ok_iff

/-- A program that gives back its input: it solves the first case, ends without an integer on the
second one, and does not end on the third one, whose input reads itself. -/
theorem evaluator_scores_input :
    Charges
      { cases := [⟨[.int 3], 3⟩, ⟨[.text "a"], 0⟩, ⟨[.sym "in1"], 0⟩]
        fuel := 20
        penalty := 10
        timeoutPenalty := some 7 } ∧
    evaluator
      { cases := [⟨[.int 3], 3⟩, ⟨[.text "a"], 0⟩, ⟨[.sym "in1"], 0⟩]
        fuel := 20
        penalty := 10
        timeoutPenalty := some 7 } [.sym "in1"] = ⟨[0, 10, 7], 17⟩ ∧
    (¬ ∀ c ∈ [Case.mk [.int 3] 3, ⟨[.text "a"], 0⟩, ⟨[.sym "in1"], 0⟩], ∃ final steps,
      runProgram .standard 20 .empty c.inputs [.sym "in1"] = (final, .halted steps) ∧
        final.top? .integer = some c.expected) ∧
    ∃ final steps,
      runProgram .standard 20 .empty [.int 3] [.sym "in1"] = (final, .halted steps) ∧
        final.top? .integer = some 3 := by
  let r (cases : List Case) : Regression :=
    { cases := cases
      fuel := 20
      penalty := 10
      timeoutPenalty := some 7 }
  have hcharges (cases : List Case) : (r cases).Charges := ⟨by simp [r], by simp [r]⟩
  have hscore : (r [⟨[.int 3], 3⟩, ⟨[.text "a"], 0⟩, ⟨[.sym "in1"], 0⟩]).evaluator [.sym "in1"] =
      ⟨[0, 10, 7], 17⟩ := by decide
  obtain ⟨-, -, -, hall⟩ := evaluator_scores _
    (hcharges [⟨[.int 3], 3⟩, ⟨[.text "a"], 0⟩, ⟨[.sym "in1"], 0⟩]) [.sym "in1"]
  obtain ⟨-, -, -, hfirst⟩ := evaluator_scores _ (hcharges [⟨[.int 3], 3⟩]) [.sym "in1"]
  refine ⟨hcharges _, hscore, mt hall.2 ?_, hfirst.1 (by decide) ⟨[.int 3], 3⟩ (.head _)⟩
  rw [hscore]
  decide

end Regression

end StackBreeder
