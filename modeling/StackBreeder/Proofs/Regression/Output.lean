import StackBreeder.Proofs.Machine.Binding
import StackBreeder.Proofs.Machine.Control
import StackBreeder.Regression.Case

/-!
# When a case has an answer

A program that halts on a case has an answer exactly if it has an integer in it, or reads a first
input that has one (`Regression.HasInteger`): all of that is executed, and an integer on the stack
is not lost again. So whether an answer is missing can be told from the program and the case
(`Regression.answer_classified`).
-/

namespace StackBreeder

open Dialect

/-- The only input that the built-in instructions read is the first one. -/
theorem mem_expansion_standard_iff {inputs : List Value} {name : String} {w : Value} :
    w ∈ standard.expansion (numbered 0 inputs) (.sym name) ↔ name = "in1" ∧ w ∈ inputs.head? := by
  have hfirst : (numbered 0 inputs).lookup "in1" = inputs.head? := by
    rw [List.head?_eq_getElem?]
    exact lookup_numbered 0 inputs 0
  rw [mem_expansion_sym]
  constructor
  · rintro ⟨hfind, hlookup⟩
    have hmem : Builtin.input name ∈ standard.entries := List.mem_of_find?_eq_some hfind
    obtain rfl : name = "in1" := by simpa [standard] using hmem
    exact ⟨rfl, hfirst ▸ hlookup⟩
  · rintro ⟨rfl, hw⟩
    exact ⟨by decide, hfirst.trans hw⟩

namespace Regression

/-- There is an integer, at some depth, in the program, or in the first input of a program in which
the name of this input occurs. -/
def HasInteger (p : Program) (inputs : List Value) : Prop :=
  ∃ n, .int n ∈ p.parts ∨ .sym "in1" ∈ p.parts ∧ ∃ v ∈ inputs.head?, .int n ∈ v.parts

variable {r : Regression} {p : Program} {c : Case} {v : Value} {inputs : List Value} {n : Nat}

/-- With the built-in instructions a program holds what occurs in it, and what occurs in the first
input if it reads it. -/
theorem holds_standard_iff :
    standard.Holds (numbered 0 inputs) p v ↔
      v ∈ p.parts ∨ .sym "in1" ∈ p.parts ∧ ∃ w ∈ inputs.head?, v ∈ w.parts := by
  constructor
  · intro h
    induction h with
    | code h => exact .inl h
    | read _ hw hv ih =>
      obtain ⟨rfl, hfirst⟩ := mem_expansion_standard_iff.1 hw
      exact .inr ⟨ih.elim id And.left, _, hfirst, hv⟩
  · rintro (h | ⟨h, w, hw, hv⟩)
    · exact .code h
    · exact .read (.code h) (mem_expansion_standard_iff.2 ⟨rfl, hw⟩) hv

/-- A program that halts on a case leaves integers exactly if there is one in what it executes. -/
theorem integer_ne_nil_iff
    (h : (runProgram .standard r.fuel .empty c.inputs p).2 = .halted n) :
    (runProgram .standard r.fuel .empty c.inputs p).1.integer ≠ [] ↔ HasInteger p c.inputs := by
  have hstart : (State.empty.bindAll c.inputs).load p =
      { exec := p, inputs := numbered 0 c.inputs } := by
    rw [State.bindAll_eq]
    simp [State.load, State.empty, numbered]
  rw [runProgram, hstart, ← registry_standard] at h ⊢
  have hdone := exec_of_halted h
  rw [run_fst, h, Outcome.steps, integer_iterate_ne_nil_iff]
  simp only [mem_executed_iff_holds hdone, holds_standard_iff, HasInteger, ne_eq, not_true_eq_false,
    false_or]

/-- A case whose run is out of fuel has no answer for this reason. -/
theorem answer_of_exhausted
    (h : (runProgram .standard r.fuel .empty c.inputs p).2 = .exhausted n) :
    r.answer p c = .error .timeout := by
  rcases hrun : runProgram .standard r.fuel .empty c.inputs p with ⟨final, outcome⟩
  rw [hrun] at h
  obtain rfl : outcome = .exhausted n := h
  rw [answer, hrun]

/-- The answer to a case whose run halts is the top integer, if there is one. -/
theorem answer_of_halted (h : (runProgram .standard r.fuel .empty c.inputs p).2 = .halted n) :
    r.answer p c =
      match (runProgram .standard r.fuel .empty c.inputs p).1.integer with
      | [] => .error .noOutput
      | top :: _ => .ok top := by
  rcases hrun : runProgram .standard r.fuel .empty c.inputs p with ⟨final, outcome⟩
  rw [hrun] at h
  obtain rfl : outcome = .halted n := h
  rw [answer, hrun]
  cases hinteger : final.integer with
  | nil => simp [State.top?, State.contents, hinteger]
  | cons top rest => simp [State.top?, State.contents, hinteger]

/-- The three ways in which a case ends: out of fuel, without an integer in what has been executed,
or with an answer. -/
theorem answer_cases (r : Regression) (p : Program) (c : Case) :
    (¬ ∃ n, (runProgram .standard r.fuel .empty c.inputs p).2 = .halted n) ∧
      r.answer p c = .error .timeout ∨
    (∃ n, (runProgram .standard r.fuel .empty c.inputs p).2 = .halted n) ∧
      (¬ HasInteger p c.inputs ∧ r.answer p c = .error .noOutput ∨
        HasInteger p c.inputs ∧ ∃ m, r.answer p c = .ok m) := by
  cases houtcome : (runProgram .standard r.fuel .empty c.inputs p).2 with
  | exhausted n => exact .inl ⟨by simp, answer_of_exhausted houtcome⟩
  | halted n =>
    have hanswer := answer_of_halted houtcome
    have hiff := integer_ne_nil_iff houtcome
    refine .inr ⟨⟨n, rfl⟩, ?_⟩
    cases hinteger : (runProgram .standard r.fuel .empty c.inputs p).1.integer with
    | nil =>
      rw [hinteger] at hanswer hiff
      exact .inl ⟨fun h => hiff.2 h rfl, hanswer⟩
    | cons top rest =>
      rw [hinteger] at hanswer hiff
      exact .inr ⟨hiff.1 (List.cons_ne_nil _ _), top, hanswer⟩

/-- A case is out of fuel exactly if the run of the program does not halt within the fuel. It is
without an answer exactly if the run halts and there is no integer at any depth of the program, nor,
if the name of the first input occurs in the program and there is such an input, at any depth of
that. In all other cases there is an answer. For whatever operators and inputs are executed, and
from any state, once there are integers on the stack there are some after every further step. -/
theorem answer_classified (r : Regression) (p : Program) (c : Case) :
    (r.answer p c = .error .timeout ↔
      ¬ ∃ n, (runProgram .standard r.fuel .empty c.inputs p).2 = .halted n) ∧
    (r.answer p c = .error .noOutput ↔
      (∃ n, (runProgram .standard r.fuel .empty c.inputs p).2 = .halted n) ∧
        ¬ HasInteger p c.inputs) ∧
    ((∃ m, r.answer p c = .ok m) ↔
      (∃ n, (runProgram .standard r.fuel .empty c.inputs p).2 = .halted n) ∧
        HasInteger p c.inputs) ∧
    ∀ (d : Dialect) (s : State) (i j : Nat), i ≤ j →
      ((step d.registry)^[i] s).integer ≠ [] → ((step d.registry)^[j] s).integer ≠ [] := by
  refine ⟨?_, ?_, ?_, fun d s i j hij h => integer_iterate_ne_nil hij h⟩
  all_goals
    rcases answer_cases r p c with
      ⟨hhalts, hanswer⟩ | ⟨hhalts, ⟨hinteger, hanswer⟩ | ⟨hinteger, m, hanswer⟩⟩
    · simp [hhalts, hanswer]
    · simp [hhalts, hanswer, hinteger]
    · simp [hhalts, hanswer, hinteger]

/-- A program that has no integers itself: with an integer within the first input there is an
answer, with one in the second input only there is none, and with an input that reads itself the run
does not halt. An operator that lacks operands does not take the last integer. -/
theorem answer_classified_first_input :
    (∃ m, answer { cases := [], fuel := 20 } [.sym "in1", .sym "integer_+"]
      ⟨[.block [.text "a", .int 3]], 0⟩ = .ok m) ∧
    answer { cases := [], fuel := 20 } [.sym "in1", .sym "integer_+"]
      ⟨[.text "a", .int 3], 0⟩ = .error .noOutput ∧
    answer { cases := [], fuel := 20 } [.sym "in1", .sym "integer_+"]
      ⟨[.sym "in1"], 0⟩ = .error .timeout ∧
    ((step standard.registry)^[2]
      { exec := [.int 4, .sym "integer_+", .sym "integer_-"] }).integer ≠ [] := by
  let r : Regression := { cases := [], fuel := 20 }
  obtain ⟨-, -, hanswer, hkeeps⟩ :=
    answer_classified r [.sym "in1", .sym "integer_+"] ⟨[.block [.text "a", .int 3]], 0⟩
  obtain ⟨-, hnone, -⟩ :=
    answer_classified r [.sym "in1", .sym "integer_+"] ⟨[.text "a", .int 3], 0⟩
  obtain ⟨htimeout, -⟩ :=
    answer_classified r [.sym "in1", .sym "integer_+"] ⟨[.sym "in1"], 0⟩
  have hexhausted : (runProgram .standard 20 .empty [.sym "in1"]
      [.sym "in1", .sym "integer_+"]).2 = .exhausted 20 := by decide
  refine ⟨hanswer.2 ⟨⟨5, by decide⟩, 3, .inr ⟨by decide, _, rfl, by decide⟩⟩,
    hnone.2 ⟨⟨3, by decide⟩, by simp [HasInteger, Value.parts]⟩,
    htimeout.2 ?_, hkeeps standard _ 1 2 (by decide) (by decide)⟩
  rw [hexhausted]
  simp

end Regression

end StackBreeder
