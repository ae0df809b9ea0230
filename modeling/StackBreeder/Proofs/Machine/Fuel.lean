import StackBreeder.Proofs.Machine.Halting

/-!
# Fuel

Fuel only cuts a run off. What a run does does not depend on how many steps have been counted
before it (`runFrom_delay`), so that a run which is out of fuel is continued, with more fuel, by the
run of the state that it has come to (`run_add`). A run that halts takes the same steps with all
fuel that is enough for them (`run_split`). Nothing is asked of the instructions of a registry: they
may be any functions on states.
-/

namespace StackBreeder

/-- The end of a run that comes some steps later. -/
def Outcome.delay (k : Nat) : Outcome → Outcome
  | .halted n => .halted (k + n)
  | .exhausted n => .exhausted (k + n)

section
variable {reg : Registry} {s s' : State} {n fuel : Nat}

/-- Steps that were counted before a run are counted at its end. -/
theorem runFrom_delay (reg : Registry) (fuel k steps : Nat) (s : State) :
    runFrom reg fuel (k + steps) s =
      ((runFrom reg fuel steps s).1, (runFrom reg fuel steps s).2.delay k) := by
  induction fuel generalizing steps s with
  | zero => cases hexec : s.exec.isEmpty <;> simp [runFrom, hexec, Outcome.delay]
  | succ fuel ih =>
    cases hexec : s.exec.isEmpty with
    | true => simp [runFrom, hexec, Outcome.delay]
    | false => simpa [runFrom, hexec, Nat.add_assoc] using ih (steps + 1) (step reg s)

/-- A run that has code for its first steps is continued by the run of the state after them. -/
theorem run_add (hpending : ∀ i < n, ((step reg)^[i] s).exec ≠ []) (fuel : Nat) :
    run reg (n + fuel : Nat) s =
      ((run reg fuel ((step reg)^[n] s)).1, (run reg fuel ((step reg)^[n] s)).2.delay n) := by
  simp only [run, Int.toNat_natCast]
  rw [runFrom_add hpending, Nat.zero_add]
  exact runFrom_delay reg fuel n 0 _

/-- A run that is out of fuel has taken a step for each unit, and there was code before each of
them. -/
theorem pending_of_exhausted (h : run reg fuel s = (s', .exhausted n)) :
    n = fuel ∧ s' = (step reg)^[fuel] s ∧ ∀ i ≤ fuel, ((step reg)^[i] s).exec ≠ [] := by
  rcases run_cases reg fuel s with ⟨m, -, -, -, hrun⟩ | ⟨hpending, hrun⟩
  · rw [hrun] at h
    cases h
  · rw [hrun] at h
    cases h
    exact ⟨rfl, rfl, hpending⟩

/-- A run that halts has taken the first number of steps that leaves no code. -/
theorem done_of_halted (h : run reg fuel s = (s', .halted n)) :
    n ≤ fuel ∧ s' = (step reg)^[n] s ∧ (∀ i < n, ((step reg)^[i] s).exec ≠ []) ∧ s'.exec = [] := by
  rcases run_cases reg fuel s with ⟨m, hfuel, hpending, hdone, hrun⟩ | ⟨-, hrun⟩
  · rw [hrun] at h
    cases h
    exact ⟨hfuel, rfl, hpending, hdone⟩
  · rw [hrun] at h
    cases h

end

/-- A run that is out of fuel has taken as many steps as it had fuel, and there is code left; with
more fuel it goes on as the run of the state that it has come to, the steps so far being added. A
run that halts has not taken more steps than it had fuel, and there was code before each of them; it
ends in the same state after as many steps with all fuel that is enough for them, and is out of fuel
with less. -/
theorem run_split (reg : Registry) (s : State) (a b : Nat) :
    (∀ s' n, run reg a s = (s', .exhausted n) →
      n = a ∧ s' = (step reg)^[a] s ∧ s'.exec ≠ [] ∧
      run reg (a + b : Nat) s = ((run reg b s').1, (run reg b s').2.delay a)) ∧
    ∀ s' n, run reg a s = (s', .halted n) →
      n ≤ a ∧ s' = (step reg)^[n] s ∧ (∀ i < n, ((step reg)^[i] s).exec ≠ []) ∧
      (∀ fuel : Nat, n ≤ fuel → run reg fuel s = (s', .halted n)) ∧
      ∀ fuel : Nat, fuel < n → run reg fuel s = ((step reg)^[fuel] s, .exhausted fuel) := by
  refine ⟨fun s' n h => ?_, fun s' n h => ?_⟩
  · obtain ⟨rfl, rfl, hpending⟩ := pending_of_exhausted h
    exact ⟨rfl, rfl, hpending _ (Nat.le_refl _),
      run_add (fun i hi => hpending i (Nat.le_of_lt hi)) b⟩
  · obtain ⟨hfuel, rfl, hpending, hdone⟩ := done_of_halted h
    exact ⟨hfuel, rfl, hpending, fun fuel hle => run_of_done hpending hdone hle,
      fun fuel hlt => run_of_pending fun i hi => hpending i (Nat.lt_of_le_of_lt hi hlt)⟩

/-- The program takes four steps. Cut off after two of them it is continued by two more, and with
three units of fuel it is out of fuel. -/
theorem run_split_four :
    run .standard 2 { exec := [.int 5, .block [.int 2, .sym "integer_*"]] } =
      ({ exec := [.int 2, .sym "integer_*"], integer := [5] }, .exhausted 2) ∧
    run .standard 4 { exec := [.int 5, .block [.int 2, .sym "integer_*"]] } =
      ((run .standard 2 { exec := [.int 2, .sym "integer_*"], integer := [5] }).1,
        (run .standard 2 { exec := [.int 2, .sym "integer_*"], integer := [5] }).2.delay 2) ∧
    run .standard 7 { exec := [.int 5, .block [.int 2, .sym "integer_*"]] } =
      ({ integer := [10] }, .halted 4) ∧
    run .standard 3 { exec := [.int 5, .block [.int 2, .sym "integer_*"]] } =
      ((step .standard)^[3] { exec := [.int 5, .block [.int 2, .sym "integer_*"]] },
        .exhausted 3) := by
  have hcut : run .standard 2 { exec := [.int 5, .block [.int 2, .sym "integer_*"]] } =
      ({ exec := [.int 2, .sym "integer_*"], integer := [5] }, .exhausted 2) := by decide
  have hdone : run .standard 7 { exec := [.int 5, .block [.int 2, .sym "integer_*"]] } =
      ({ integer := [10] }, .halted 4) := by decide
  obtain ⟨-, -, -, hrest⟩ :=
    (run_split .standard { exec := [.int 5, .block [.int 2, .sym "integer_*"]] } 2 2).1 _ _ hcut
  obtain ⟨-, -, -, -, hless⟩ :=
    (run_split .standard { exec := [.int 5, .block [.int 2, .sym "integer_*"]] } 7 0).2 _ _ hdone
  exact ⟨hcut, hrest, hdone, hless 3 (by decide)⟩

end StackBreeder
