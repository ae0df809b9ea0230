import StackBreeder.Proofs.Machine.Evaluation

/-!
# Halting

A run steps until no code is left or its fuel is used up (`run_cases`). Code that runs to its end is
grounded, as every value in it has been replaced by its expansion until nothing was left
(`grounded_of_iterate`); and grounded code is worked off in as many steps as it costs. So whether a
run can end, and after how many steps, is read off the code and the inputs (`run_exhausted_iff`).
-/

namespace StackBreeder

section
variable {reg : Registry} {s : State} {n : Nat}

/-- As long as there is code and fuel, a run steps. -/
theorem runFrom_add (hpending : ∀ i < n, ((step reg)^[i] s).exec ≠ []) (fuel steps : Nat) :
    runFrom reg (n + fuel) steps s = runFrom reg fuel (steps + n) ((step reg)^[n] s) := by
  induction n generalizing s steps with
  | zero => rw [Nat.zero_add]; rfl
  | succ n ih =>
    have hexec : s.exec.isEmpty = false := by simpa using hpending 0 (Nat.succ_pos n)
    have hrest : ∀ i < n, ((step reg)^[i] (step reg s)).exec ≠ [] := fun i hi => by
      rw [← Function.iterate_succ_apply]
      exact hpending (i + 1) (Nat.succ_lt_succ hi)
    rw [Nat.succ_add, runFrom, hexec, Function.iterate_succ_apply]
    simpa [Nat.add_assoc, Nat.add_comm 1] using ih hrest (steps + 1)

/-- Code that ends after `n` steps ends a run that has the fuel for them. -/
theorem run_of_done {fuel : Int} (hpending : ∀ i < n, ((step reg)^[i] s).exec ≠ [])
    (hdone : ((step reg)^[n] s).exec = []) (hfuel : n ≤ fuel.toNat) :
    run reg fuel s = ((step reg)^[n] s, .halted n) := by
  obtain ⟨rest, hrest⟩ := Nat.exists_eq_add_of_le hfuel
  rw [run, hrest, runFrom_add hpending, runFrom.eq_def, Nat.zero_add]
  simp [hdone]

/-- A run whose code does not end within its fuel uses up all of it. -/
theorem run_of_pending {fuel : Int}
    (hpending : ∀ i ≤ fuel.toNat, ((step reg)^[i] s).exec ≠ []) :
    run reg fuel s = ((step reg)^[fuel.toNat] s, .exhausted fuel.toNat) := by
  have h := runFrom_add (fun i hi => hpending i (Nat.le_of_lt hi)) 0 0
  rw [Nat.add_zero, Nat.zero_add] at h
  rw [run, h, runFrom.eq_def]
  simp [hpending]

/-- A run ends after the first number of steps that leaves no code, if it has the fuel for them, and
else after as many steps as it has fuel. -/
theorem run_cases (reg : Registry) (fuel : Int) (s : State) :
    (∃ n ≤ fuel.toNat, (∀ i < n, ((step reg)^[i] s).exec ≠ []) ∧ ((step reg)^[n] s).exec = [] ∧
      run reg fuel s = ((step reg)^[n] s, .halted n)) ∨
    ((∀ i ≤ fuel.toNat, ((step reg)^[i] s).exec ≠ []) ∧
      run reg fuel s = ((step reg)^[fuel.toNat] s, .exhausted fuel.toNat)) := by
  by_cases hdone : ∃ n, n ≤ fuel.toNat ∧ ((step reg)^[n] s).exec = []
  · classical
    obtain ⟨hfuel, hexec⟩ := Nat.find_spec hdone
    have hpending (i : Nat) (hi : i < Nat.find hdone) : ((step reg)^[i] s).exec ≠ [] :=
      fun hnil => Nat.find_min hdone hi ⟨by omega, hnil⟩
    exact .inl ⟨_, hfuel, hpending, hexec, run_of_done hpending hexec hfuel⟩
  · have hpending (i : Nat) (hi : i ≤ fuel.toNat) : ((step reg)^[i] s).exec ≠ [] :=
      fun hnil => hdone ⟨i, hi, hnil⟩
    exact .inr ⟨hpending, run_of_pending hpending⟩

/-- The state that a run ends with is the one after the steps that it took. -/
theorem run_fst (reg : Registry) (fuel : Int) (s : State) :
    (run reg fuel s).1 = (step reg)^[(run reg fuel s).2.steps] s := by
  rcases run_cases reg fuel s with ⟨n, -, -, -, h⟩ | ⟨-, h⟩
  · rw [h, Outcome.steps]
  · rw [h, Outcome.steps]

/-- A run that halts after some steps has worked off its code by then. -/
theorem exec_of_halted {fuel : Int} (h : (run reg fuel s).2 = .halted n) :
    ((step reg)^[n] s).exec = [] := by
  rcases run_cases reg fuel s with ⟨m, -, -, hdone, hrun⟩ | ⟨-, hrun⟩
  · rw [hrun] at h
    cases h
    exact hdone
  · rw [hrun] at h
    cases h

end

namespace Dialect

variable {d : Dialect} {inputs : List (String × Value)} {σ : Data} {code : List Value} {n : Nat}

/-- Code that is worked off in some number of steps is grounded. -/
theorem grounded_of_iterate
    (h : ((step d.registry)^[n] (σ.state code inputs)).exec = []) :
    ∀ v ∈ code, d.Grounded inputs v := by
  induction n generalizing σ code with
  | zero =>
    obtain rfl : code = [] := h
    nofun
  | succ n ih =>
    cases code with
    | nil => nofun
    | cons v code =>
      rw [Function.iterate_succ_apply, step_cons] at h
      have hrest := ih h
      intro w hw
      rcases List.mem_cons.1 hw with rfl | hw
      · exact ⟨_, fun w hw => hrest w (List.mem_append_left _ hw)⟩
      · exact hrest w (List.mem_append_right _ hw)

/-- The run of grounded code halts after as many steps as the code costs, and needs fuel for all of
them. -/
theorem run_grounded {s : State} (h : ∀ v ∈ s.exec, d.Grounded s.inputs v) (fuel : Int) :
    ((d.costAll s.inputs s.exec h : Int) ≤ max fuel 0 →
      (run d.registry fuel s).2 = .halted (d.costAll s.inputs s.exec h)) ∧
    (max fuel 0 < d.costAll s.inputs s.exec h →
      (run d.registry fuel s).2 = .exhausted (max fuel 0).toNat ∧
      (run d.registry fuel s).1.exec ≠ []) := by
  obtain ⟨hdone, hpending⟩ := worksOff_evalAll h s.data []
  rw [List.append_nil] at hdone
  simp only [List.append_nil] at hpending
  have hs : s.data.state s.exec s.inputs = s := rfl
  rw [hs] at hdone hpending
  have hne (i : Nat) (hi : i < d.costAll s.inputs s.exec h) :
      ((step d.registry)^[i] s).exec ≠ [] := by
    obtain ⟨pending, hne, hexec⟩ := hpending i hi
    rwa [hexec]
  refine ⟨fun hfuel => ?_, fun hfuel => ?_⟩
  · rw [run_of_done hne (by rw [hdone]; rfl) (by omega)]
  · rw [run_of_pending fun i hi => hne i (by omega), show (max fuel 0).toNat = fuel.toNat by omega]
    exact ⟨rfl, hne _ (by omega)⟩

/-- With some fuel a run halts exactly if its code is grounded. -/
theorem exists_halted_iff {s : State} :
    (∃ fuel n, (run d.registry fuel s).2 = .halted n) ↔ ∀ v ∈ s.exec, d.Grounded s.inputs v := by
  constructor
  · rintro ⟨fuel, n, h⟩
    have hdone : ((step d.registry)^[n] (s.data.state s.exec s.inputs)).exec = [] :=
      exec_of_halted h
    exact grounded_of_iterate hdone
  · intro h
    exact ⟨_, _, (run_grounded h (d.costAll s.inputs s.exec h)).1 (by omega)⟩

/-- A run that halts has taken as many steps as its code costs, and ends with the data that the
evaluation of the code gives. -/
theorem run_of_halted {s : State} {fuel : Int} (h : (run d.registry fuel s).2 = .halted n) :
    ∃ hg : ∀ v ∈ s.exec, d.Grounded s.inputs v,
      n = d.costAll s.inputs s.exec hg ∧
      (run d.registry fuel s).1 = (d.evalAll s.inputs s.exec hg s.data).state [] s.inputs := by
  have hg := exists_halted_iff.1 ⟨fuel, n, h⟩
  have hn : n = d.costAll s.inputs s.exec hg := by
    rcases Int.lt_or_le (max fuel 0) (d.costAll s.inputs s.exec hg) with hlt | hle
    · rw [((run_grounded hg fuel).2 hlt).1] at h
      cases h
    · rw [(run_grounded hg fuel).1 hle] at h
      cases h
      rfl
  refine ⟨hg, hn, ?_⟩
  obtain ⟨hdone, -⟩ := worksOff_evalAll hg s.data []
  rw [List.append_nil] at hdone
  rw [run_fst, h, Outcome.steps, hn]
  exact hdone

/-- Every run of a state is out of fuel, however much it gets, if and only if some symbol of its code
starts an endless chain of references, which is to say that it reaches a cycle of references.
Otherwise the code and the inputs have a cost: a run halts after exactly that many steps if its fuel
is enough, and else uses up its fuel, negative fuel counting as none, and leaves code. -/
theorem run_exhausted_iff (d : Dialect) (s : State) :
    ((∀ fuel : Int, ∃ n, (run d.registry fuel s).2 = .exhausted n) ↔
      ∃ name, .sym name ∈ Program.parts s.exec ∧ d.Endless s.inputs name) ∧
    (∀ name, d.Endless s.inputs name ↔ d.ReachesCycle s.inputs name) ∧
    ((¬ ∃ name, .sym name ∈ Program.parts s.exec ∧ d.Endless s.inputs name) →
      ∃ h : ∀ v ∈ s.exec, d.Grounded s.inputs v, ∀ fuel : Int,
        ((d.costAll s.inputs s.exec h : Int) ≤ max fuel 0 →
          (run d.registry fuel s).2 = .halted (d.costAll s.inputs s.exec h)) ∧
        (max fuel 0 < d.costAll s.inputs s.exec h →
          (run d.registry fuel s).2 = .exhausted (max fuel 0).toNat ∧
          (run d.registry fuel s).1.exec ≠ [])) := by
  refine ⟨⟨fun h => ?_, fun h fuel => ?_⟩, fun name => endless_iff_reachesCycle, fun h => ?_⟩
  · by_contra hends
    have hg := grounded_iff.2 hends
    obtain ⟨n, hn⟩ := h (d.costAll s.inputs s.exec hg)
    rw [(run_grounded hg _).1 (by omega)] at hn
    cases hn
  · refine ⟨_, congrArg Prod.snd (run_of_pending fun i _ hdone => ?_)⟩
    have hdone : ((step d.registry)^[i] (s.data.state s.exec s.inputs)).exec = [] := hdone
    exact grounded_iff.1 (grounded_of_iterate hdone) h
  · have hg := grounded_iff.2 h
    exact ⟨hg, run_grounded hg⟩

/-- Only the first of two bindings of a name counts, so that the second one makes no cycle; six
steps, of which the last is for a name without meaning. -/
theorem run_exhausted_iff_shadowed :
    (¬ ∃ name, .sym name ∈ Program.parts [.int 5, .sym "in1", .sym "in2"] ∧
      standard.Endless [("in1", .block [.int 2, .sym "integer_*"]), ("in1", .sym "in1")] name) ∧
    ∀ fuel : Int,
      (6 ≤ max fuel 0 →
        (run .standard fuel
          { exec := [.int 5, .sym "in1", .sym "in2"]
            inputs := [("in1", .block [.int 2, .sym "integer_*"]), ("in1", .sym "in1")] }).2 =
          .halted 6) ∧
      (max fuel 0 < 6 →
        (run .standard fuel
          { exec := [.int 5, .sym "in1", .sym "in2"]
            inputs := [("in1", .block [.int 2, .sym "integer_*"]), ("in1", .sym "in1")] }).2 =
          .exhausted (max fuel 0).toNat) := by
  have hin : standard.find? "in1" = some (.input "in1") := by decide
  have hin' : standard.find? "in2" = none := by decide
  have htimes : standard.find? "integer_*" = some (.operator .times) := by decide
  have hg : ∀ v ∈ [.int 5, .sym "in1", .sym "in2"],
      standard.Grounded [("in1", .block [.int 2, .sym "integer_*"]), ("in1", .sym "in1")] v := by
    simp [grounded_sym_iff, hin', htimes]
  have hcost : standard.costAll _ _ hg = 6 := by
    simp [cost_eq, expansion, hin, hin', htimes]
  obtain ⟨h, hrun⟩ := (run_exhausted_iff standard
    { exec := [.int 5, .sym "in1", .sym "in2"]
      inputs := [("in1", .block [.int 2, .sym "integer_*"]), ("in1", .sym "in1")] }).2.2
    (grounded_iff.1 hg)
  refine ⟨grounded_iff.1 hg, fun fuel => ?_⟩
  have hfuel := hrun fuel
  rw [hcost] at hfuel
  exact ⟨hfuel.1, fun hlt => (hfuel.2 hlt).1⟩

end Dialect

end StackBreeder
