import StackBreeder.Proofs.Machine.Execution

/-!
# Control and data

Which values a machine executes depends on its code and its inputs, and not on what is on its
stacks: after a number of steps the same values have been executed from all data, and the same code
is left (`Dialect.exists_iterate_step`). The data in the end are what the values made of the data,
one after the other (`Dialect.actAll`). Texts are only ever added to the texts there were, and
integers are computed from integers, so that two runs which differ in their data alone end in the
same way (`Dialect.run_control`). No operator takes the last integer, so there are integers in the
end if there were some before or if one has been executed (`Dialect.integer_iterate_ne_nil_iff`).
-/

namespace StackBreeder

section
variable {reg : Registry} {s s' : State}

/-- Runs of states that have the same code after every number of steps take equally many steps, and
end in the same way. -/
theorem exists_run_eq (h : ∀ n, ((step reg)^[n] s').exec = ((step reg)^[n] s).exec) (fuel : Int) :
    ∃ n outcome, run reg fuel s = ((step reg)^[n] s, outcome) ∧
      run reg fuel s' = ((step reg)^[n] s', outcome) := by
  rcases run_cases reg fuel s with ⟨n, hfuel, hpending, hexec, hrun⟩ | ⟨hpending, hrun⟩
  · refine ⟨n, _, hrun, run_of_done (fun i hi => ?_) ?_ hfuel⟩
    · rw [h]
      exact hpending i hi
    · rw [h]
      exact hexec
  · refine ⟨_, _, hrun, run_of_pending fun i hi => ?_⟩
    rw [h]
    exact hpending i hi

end

/-- The text that a value puts on the stack of texts, if it does so. -/
def Value.text? : Value → Option String
  | .text content => some content
  | _ => none

namespace Dialect

variable {d : Dialect} {v : Value} {vs : List Value} {σ σ' : Data}

/-- What values do to the data when they are executed one after the other. -/
def actAll (d : Dialect) (vs : List Value) (σ : Data) : Data := vs.foldl (fun σ v => d.act v σ) σ

@[simp] theorem actAll_nil (d : Dialect) (σ : Data) : d.actAll [] σ = σ := rfl

@[simp] theorem actAll_cons (d : Dialect) (v : Value) (vs : List Value) (σ : Data) :
    d.actAll (v :: vs) σ = d.actAll vs (d.act v σ) := rfl

/-- From all data the same values are executed, and the same code is left. -/
theorem exists_iterate_step (d : Dialect) (inputs : List (String × Value)) (n : Nat)
    (code : List Value) :
    ∃ vs code', ∀ σ : Data, executed d.registry n (σ.state code inputs) = vs ∧
      (step d.registry)^[n] (σ.state code inputs) = (d.actAll vs σ).state code' inputs := by
  induction n generalizing code with
  | zero => exact ⟨[], code, fun σ => ⟨rfl, rfl⟩⟩
  | succ n ih =>
    cases code with
    | nil =>
      obtain ⟨vs, code', h⟩ := ih []
      refine ⟨vs, code', fun σ => ?_⟩
      rw [Function.iterate_succ_apply]
      exact h σ
    | cons v code =>
      obtain ⟨vs, code', h⟩ := ih (d.expansion inputs v ++ code)
      refine ⟨v :: vs, code', fun σ => ?_⟩
      obtain ⟨hexecuted, hstate⟩ := h (d.act v σ)
      rw [executed, Function.iterate_succ_apply, step_cons, hexecuted, hstate]
      exact ⟨rfl, rfl⟩

/-! ## Texts and integers -/

theorem string_act : (d.act v σ).string = v.text?.toList ++ σ.string := by
  cases v with
  | int | text | block => rfl
  | sym name =>
    simp only [act, Value.text?, Option.toList_none, List.nil_append]
    split
    · unfold Data.combine
      split <;> rfl
    · rfl

/-- The texts that are executed lie on top of those there were, the last one first. -/
theorem string_actAll (d : Dialect) (vs : List Value) (σ : Data) :
    (d.actAll vs σ).string = (vs.filterMap Value.text?).reverse ++ σ.string := by
  induction vs generalizing σ with
  | nil => rfl
  | cons v vs ih =>
    rw [actAll_cons, ih, string_act]
    cases hv : v.text? with
    | none => simp [hv]
    | some content => simp [hv]

/-- What becomes of the integers does not depend on the texts. -/
theorem integer_act_congr (h : σ'.integer = σ.integer) :
    (d.act v σ').integer = (d.act v σ).integer := by
  cases v with
  | int n => exact congrArg (n :: ·) h
  | text | block => exact h
  | sym name =>
    simp only [act]
    split
    · simp only [Data.combine, h]
      split
      · rfl
      · exact h
    · exact h

theorem integer_actAll_congr (h : σ'.integer = σ.integer) :
    (d.actAll vs σ').integer = (d.actAll vs σ).integer := by
  induction vs generalizing σ σ' with
  | nil => exact h
  | cons v vs ih => exact ih (integer_act_congr h)

/-- A value that is executed leaves integers if there were some or if it is one. -/
theorem integer_act_ne_nil_iff :
    (d.act v σ).integer ≠ [] ↔ σ.integer ≠ [] ∨ ∃ n, v = .int n := by
  cases v with
  | int n => simp [act]
  | text | block => simp [act]
  | sym name =>
    simp only [act, reduceCtorEq, exists_false, or_false]
    split
    · -- an operator puts one integer in the place of two
      unfold Data.combine
      split
      · next hinteger => simp [hinteger]
      · rfl
    · rfl

theorem integer_actAll_ne_nil_iff :
    (d.actAll vs σ).integer ≠ [] ↔ σ.integer ≠ [] ∨ ∃ n, .int n ∈ vs := by
  induction vs generalizing σ with
  | nil => simp
  | cons v vs ih =>
    rw [actAll_cons, ih, integer_act_ne_nil_iff]
    simp only [List.mem_cons, exists_or, or_assoc, eq_comm]

/-- After some steps there are integers if there were some before or if one has been executed. -/
theorem integer_iterate_ne_nil_iff {n : Nat} {s : State} :
    ((step d.registry)^[n] s).integer ≠ [] ↔
      s.integer ≠ [] ∨ ∃ m, .int m ∈ executed d.registry n s := by
  obtain ⟨vs, code, h⟩ := d.exists_iterate_step s.inputs n s.exec
  obtain ⟨hexecuted, hstate⟩ := h s.data
  have hs : s.data.state s.exec s.inputs = s := rfl
  rw [hs] at hexecuted hstate
  rw [hexecuted, hstate]
  exact integer_actAll_ne_nil_iff

/-- The stack of integers does not become empty again. -/
theorem integer_iterate_ne_nil {i j : Nat} {s : State} (hij : i ≤ j)
    (h : ((step d.registry)^[i] s).integer ≠ []) : ((step d.registry)^[j] s).integer ≠ [] := by
  obtain ⟨k, rfl⟩ := Nat.exists_eq_add_of_le hij
  rw [Nat.add_comm, Function.iterate_add_apply]
  exact integer_iterate_ne_nil_iff.2 (.inl h)

/-- Let two states have the same code and the same inputs, whatever is on their stacks. Their runs
end in the same way, after the same number of steps, and with the same code and the same inputs. The
same texts have been put on top of the texts of each. If the integers were the same, so they are in
the end, whatever the texts. -/
theorem run_control (d : Dialect) (fuel : Int) (s s' : State) (hexec : s'.exec = s.exec)
    (hinputs : s'.inputs = s.inputs) :
    (run d.registry fuel s').2 = (run d.registry fuel s).2 ∧
    (run d.registry fuel s').1.exec = (run d.registry fuel s).1.exec ∧
    (run d.registry fuel s').1.inputs = (run d.registry fuel s).1.inputs ∧
    (∃ texts, (run d.registry fuel s).1.string = texts ++ s.string ∧
      (run d.registry fuel s').1.string = texts ++ s'.string) ∧
    (s'.integer = s.integer →
      (run d.registry fuel s').1.integer = (run d.registry fuel s).1.integer) := by
  have hs : s = s.data.state s.exec s.inputs := rfl
  have hs' : s' = s'.data.state s.exec s.inputs := by
    rw [← hexec, ← hinputs]
    rfl
  have hcode (n : Nat) : ((step d.registry)^[n] s').exec = ((step d.registry)^[n] s).exec := by
    obtain ⟨vs, code, h⟩ := d.exists_iterate_step s.inputs n s.exec
    rw [hs, hs', (h _).2, (h _).2]
    rfl
  obtain ⟨n, outcome, hrun, hrun'⟩ := exists_run_eq hcode fuel
  obtain ⟨vs, code, h⟩ := d.exists_iterate_step s.inputs n s.exec
  have hfinal : (step d.registry)^[n] s = (d.actAll vs s.data).state code s.inputs :=
    (h s.data).2
  have hfinal' : (step d.registry)^[n] s' = (d.actAll vs s'.data).state code s.inputs := by
    rw [hs']
    exact (h s'.data).2
  rw [hrun, hrun', hfinal, hfinal']
  refine ⟨rfl, rfl, rfl, ⟨(vs.filterMap Value.text?).reverse, ?_, ?_⟩, fun hinteger => ?_⟩
  · exact d.string_actAll vs s.data
  · exact d.string_actAll vs s'.data
  · exact integer_actAll_congr hinteger

/-- A run that is cut off within an input. The first operator adds two integers in one run and lacks
them in the other; without the text, the integers of the first run are the same. -/
theorem run_control_cut_off :
    (run .standard 5
        { exec := [.sym "integer_+", .text "a", .sym "in1"]
          inputs := [("in1", .block [.int 2, .sym "integer_*"])] }).2 = .exhausted 5 ∧
    (∃ texts,
      (run .standard 5
        { exec := [.sym "integer_+", .text "a", .sym "in1"]
          integer := [3, 4]
          string := ["x"]
          inputs := [("in1", .block [.int 2, .sym "integer_*"])] }).1.string = texts ++ ["x"] ∧
      (run .standard 5
        { exec := [.sym "integer_+", .text "a", .sym "in1"]
          inputs := [("in1", .block [.int 2, .sym "integer_*"])] }).1.string = texts ++ []) ∧
    (run .standard 5
        { exec := [.sym "integer_+", .text "a", .sym "in1"]
          integer := [3, 4]
          inputs := [("in1", .block [.int 2, .sym "integer_*"])] }).1.integer = [2, 7] := by
  have hrun : run .standard 5
      { exec := [.sym "integer_+", .text "a", .sym "in1"]
        integer := [3, 4]
        string := ["x"]
        inputs := [("in1", .block [.int 2, .sym "integer_*"])] } =
      ({ exec := [.sym "integer_*"]
         integer := [2, 7]
         string := ["a", "x"]
         inputs := [("in1", .block [.int 2, .sym "integer_*"])] }, .exhausted 5) := by decide
  obtain ⟨houtcome, -, -, hstring, -⟩ := run_control standard 5
    { exec := [.sym "integer_+", .text "a", .sym "in1"]
      integer := [3, 4]
      string := ["x"]
      inputs := [("in1", .block [.int 2, .sym "integer_*"])] }
    { exec := [.sym "integer_+", .text "a", .sym "in1"]
      inputs := [("in1", .block [.int 2, .sym "integer_*"])] } rfl rfl
  obtain ⟨-, -, -, -, hinteger⟩ := run_control standard 5
    { exec := [.sym "integer_+", .text "a", .sym "in1"]
      integer := [3, 4]
      string := ["x"]
      inputs := [("in1", .block [.int 2, .sym "integer_*"])] }
    { exec := [.sym "integer_+", .text "a", .sym "in1"]
      integer := [3, 4]
      inputs := [("in1", .block [.int 2, .sym "integer_*"])] } rfl rfl
  rw [registry_standard, hrun] at houtcome hinteger
  exact ⟨houtcome, hstring, hinteger rfl⟩

end Dialect

end StackBreeder
