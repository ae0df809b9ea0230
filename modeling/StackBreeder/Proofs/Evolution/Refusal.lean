import StackBreeder.Proofs.Breeding.Palette
import StackBreeder.Proofs.Evolution.Machine

/-!
# Evolutions that are refused

An evolution is refused exactly if its terms have a fault, and with the first one in the order in
which they are checked (`Config.check_eq_error_iff`). The terms determine what it is told then
(`Config.IsFirstComplaint`, `exists_evolve_message_iff`).

On terms without a fault nothing can fail: in every state that the machine reaches it has the
programs or individuals that its phase needs (`Driver.Provided`), so that no step fails, whatever is
drawn (`Driver.exists_step`).
-/

namespace StackBreeder

open Breeding

/-! ## Faults of the terms -/

/-- The place of a fault in the order in which terms are checked. -/
def ConfigError.rank : ConfigError → Nat
  | .populationSize => 0
  | .maxGenerations => 1
  | .maxProgramSize => 2
  | .tournamentSize => 3
  | .executor _ => 4
  | .palette _ => 5
  | .founders => 6

namespace Config

variable {config : Config} {given : Option (List Program)} {e e' : ConfigError}

/-- What can be wrong with the terms of an evolution. -/
def Fault (config : Config) (given : Option (List Program)) : ConfigError → Prop
  | .populationSize => config.populationSize ≤ 0
  | .maxGenerations => config.maxGenerations < 0
  | .maxProgramSize => config.maxProgramSize < 1
  | .tournamentSize => config.tournamentSize < 1
  | .executor name => config.executor ∉ ["thread", "process"] ∧ name = config.executor
  | .palette e => config.palette.Fault .standard e
  | .founders => ∃ programs ∈ given, (programs.length : Int) ≠ config.populationSize

/-- A fault before which there is no other. -/
def IsFirstFault (config : Config) (given : Option (List Program)) (e : ConfigError) : Prop :=
  config.Fault given e ∧ ∀ e', config.Fault given e' → e.rank ≤ e'.rank

/-- At each place there is at most one fault. -/
theorem Fault.eq_of_rank (h : config.Fault given e) (h' : config.Fault given e')
    (hrank : e.rank = e'.rank) : e = e' := by
  cases e with
  | executor name =>
    cases e' with
    | executor name' => rw [h.2, h'.2]
    | _ => cases hrank
  | palette fault =>
    cases e' with
    | palette fault' =>
      rw [← Except.error.inj ((Palette.check_eq_error_iff.2 h).symm.trans
        (Palette.check_eq_error_iff.2 h'))]
    | _ => cases hrank
  | _ => cases e' <;> first | rfl | cases hrank

/-- What the check reports is a fault. -/
theorem fault_of_check (h : config.check given = .error e) : config.Fault given e := by
  unfold check at h
  split_ifs at h with hpopulation hgenerations hprogram htournament hexecutor
  · cases h; exact hpopulation
  · cases h; exact hgenerations
  · cases h; exact hprogram
  · cases h; exact htournament
  · split at h
    · next fault hpalette =>
      cases h
      exact Palette.check_eq_error_iff.1 hpalette
    · split at h
      · cases h
      · next programs =>
        split_ifs at h with hlength
        cases h
        exact ⟨programs, rfl, hlength⟩
  · cases h; exact ⟨hexecutor, rfl⟩

/-- If there is a fault, the check reports one, and none that comes later. -/
theorem Fault.exists_check (h : config.Fault given e) :
    ∃ e', config.check given = .error e' ∧ e'.rank ≤ e.rank := by
  unfold check
  cases e with
  | populationSize => exact ⟨_, if_pos h, Nat.le_refl _⟩
  | maxGenerations | maxProgramSize | tournamentSize =>
    simp only [Fault] at h
    split_ifs <;> exact ⟨_, rfl, by simp [ConfigError.rank]⟩
  | executor name =>
    obtain ⟨hexecutor, rfl⟩ := h
    split_ifs <;> exact ⟨_, rfl, by simp [ConfigError.rank]⟩
  | palette fault =>
    rw [Palette.check_eq_error_iff.2 h]
    split_ifs <;> exact ⟨_, rfl, by simp [ConfigError.rank]⟩
  | founders =>
    obtain ⟨programs, rfl, hlength⟩ := h
    split_ifs
    any_goals exact ⟨_, rfl, by simp [ConfigError.rank]⟩
    split
    · exact ⟨_, rfl, by simp [ConfigError.rank]⟩
    · exact ⟨_, if_pos hlength, Nat.le_refl _⟩

/-- The check reports the first fault. -/
theorem check_eq_error_iff : config.check given = .error e ↔ config.IsFirstFault given e := by
  constructor
  · intro h
    refine ⟨fault_of_check h, fun other hother => ?_⟩
    obtain ⟨reported, hreported, hrank⟩ := hother.exists_check
    rw [h] at hreported
    cases hreported
    exact hrank
  · rintro ⟨h, hfirst⟩
    obtain ⟨reported, hreported, hrank⟩ := h.exists_check
    have hfault := fault_of_check hreported
    rwa [h.eq_of_rank hfault (Nat.le_antisymm (hfirst reported hfault) hrank)]

/-- When terms have a fault. -/
theorem exists_fault_iff :
    (∃ e, config.Fault given e) ↔
      config.populationSize ≤ 0 ∨ config.maxGenerations < 0 ∨ config.maxProgramSize < 1 ∨
      config.tournamentSize < 1 ∨ config.executor ∉ ["thread", "process"] ∨
      (config.palette = [] ∨ ∃ name, .sym name ∈ config.palette ∧ name ∉ Registry.standard.names) ∨
      ∃ programs ∈ given, (programs.length : Int) ≠ config.populationSize := by
  rw [← Palette.exists_fault_iff]
  constructor
  · rintro ⟨e, h⟩
    cases e with
    | populationSize => exact .inl h
    | maxGenerations => exact .inr (.inl h)
    | maxProgramSize => exact .inr (.inr (.inl h))
    | tournamentSize => exact .inr (.inr (.inr (.inl h)))
    | executor name => exact .inr (.inr (.inr (.inr (.inl h.1))))
    | palette fault => exact .inr (.inr (.inr (.inr (.inr (.inl ⟨fault, h⟩)))))
    | founders => exact .inr (.inr (.inr (.inr (.inr (.inr h)))))
  · rintro (h | h | h | h | h | ⟨fault, h⟩ | h)
    · exact ⟨.populationSize, h⟩
    · exact ⟨.maxGenerations, h⟩
    · exact ⟨.maxProgramSize, h⟩
    · exact ⟨.tournamentSize, h⟩
    · exact ⟨.executor config.executor, h, rfl⟩
    · exact ⟨.palette fault, h⟩
    · exact ⟨.founders, h⟩

/-- Terms without a fault are valid. -/
theorem valid_of_forall_not_fault (h : ∀ e, ¬ config.Fault given e) : config.Valid given := by
  cases hcheck : config.check given with
  | ok => exact check_eq_ok_iff.1 hcheck
  | error e => exact absurd (fault_of_check hcheck) (h e)

/-- Terms that the check accepts have no fault. -/
theorem not_fault_of_check (h : config.check given = .ok ()) (e : ConfigError) :
    ¬ config.Fault given e := by
  intro hfault
  obtain ⟨reported, hreported, -⟩ := hfault.exists_check
  rw [h] at hreported
  cases hreported

/-! ## Complaints -/

/-- What is said of the terms of an evolution, if something is wrong with them, by the place at
which it is looked at. -/
inductive Complaint (config : Config) (given : Option (List Program)) : Nat → String → Prop
  | populationSize (h : config.populationSize ≤ 0) :
    Complaint config given 0 "population_size must be > 0"
  | maxGenerations (h : config.maxGenerations < 0) :
    Complaint config given 1 "max_generations must be >= 0"
  | maxProgramSize (h : config.maxProgramSize < 1) :
    Complaint config given 2 "max_initial_program_size must be >= 1"
  | tournamentSize (h : config.tournamentSize < 1) :
    Complaint config given 3 "tournament_size must be >= 1"
  | executor (h : config.executor ∉ ["thread", "process"]) :
    Complaint config given 4 ("unknown executor: " ++ config.executor)
  | noPalette (h : config.palette = []) :
    Complaint config given 5 "instruction palette must not be empty"
  /-- All symbols of the palette before this one are names of instructions. -/
  | unknown {front back : Palette} {name : String}
    (h : config.palette = front ++ .sym name :: back) (hname : name ∉ Registry.standard.names)
    (hfront : ∀ other, .sym other ∈ front → other ∈ Registry.standard.names) :
    Complaint config given 5
      ("palette[" ++ toString front.length ++ "]: unknown instruction: " ++ name)
  | founders {programs : List Program} (h : given = some programs)
    (hlength : (programs.length : Int) ≠ config.populationSize) :
    Complaint config given 6 "initial_population size must match population_size"

/-- A text that is said of the terms at a place before which there is nothing to complain of. -/
def IsFirstComplaint (config : Config) (given : Option (List Program)) (text : String) : Prop :=
  ∃ place, config.Complaint given place text ∧
    ∀ other text', config.Complaint given other text' → place ≤ other

/-- The texts of faults are the complaints. -/
theorem complaint_iff {place : Nat} {text : String} :
    config.Complaint given place text ↔
      ∃ e, config.Fault given e ∧ e.rank = place ∧ e.message = text := by
  constructor
  · rintro (h | h | h | h | h | h | ⟨h, hname, hfront⟩ | ⟨h, hlength⟩)
    · exact ⟨.populationSize, h, rfl, rfl⟩
    · exact ⟨.maxGenerations, h, rfl, rfl⟩
    · exact ⟨.maxProgramSize, h, rfl, rfl⟩
    · exact ⟨.tournamentSize, h, rfl, rfl⟩
    · exact ⟨.executor config.executor, ⟨h, rfl⟩, rfl, rfl⟩
    · exact ⟨.palette .empty, h, rfl, rfl⟩
    · exact ⟨.palette (.unknown _ _), ⟨_, _, h, rfl, hname, hfront⟩, rfl, rfl⟩
    · exact ⟨.founders, ⟨_, h, hlength⟩, rfl, rfl⟩
  · rintro ⟨e, h, rfl, rfl⟩
    cases e with
    | populationSize => exact .populationSize h
    | maxGenerations => exact .maxGenerations h
    | maxProgramSize => exact .maxProgramSize h
    | tournamentSize => exact .tournamentSize h
    | executor name =>
      obtain ⟨hexecutor, rfl⟩ := h
      exact .executor hexecutor
    | palette fault =>
      cases fault with
      | empty => exact .noPalette h
      | unknown index name =>
        obtain ⟨front, back, hpalette, rfl, hname, hfront⟩ := h
        exact .unknown hpalette hname hfront
    | founders =>
      obtain ⟨programs, hgiven, hlength⟩ := h
      exact .founders hgiven hlength

/-- The text of the first fault is the first complaint. -/
theorem isFirstComplaint_iff {text : String} :
    config.IsFirstComplaint given text ↔
      ∃ e, config.IsFirstFault given e ∧ e.message = text := by
  simp only [IsFirstComplaint, complaint_iff]
  constructor
  · rintro ⟨_, ⟨e, h, rfl, rfl⟩, hfirst⟩
    exact ⟨e, ⟨h, fun e' h' => hfirst _ _ ⟨e', h', rfl, rfl⟩⟩, rfl⟩
  · rintro ⟨e, ⟨h, hfirst⟩, rfl⟩
    refine ⟨e.rank, ⟨e, h, rfl, rfl⟩, ?_⟩
    rintro _ _ ⟨e', h', rfl, rfl⟩
    exact hfirst e' h'

/-- If there is a fault, then there is a first complaint. -/
theorem exists_isFirstComplaint_iff :
    (∃ text, config.IsFirstComplaint given text) ↔ ∃ e, config.Fault given e := by
  simp only [isFirstComplaint_iff]
  constructor
  · rintro ⟨_, e, h, -⟩
    exact ⟨e, h.1⟩
  · rintro ⟨e, h⟩
    obtain ⟨first, hcheck, -⟩ := h.exists_check
    exact ⟨_, first, check_eq_error_iff.1 hcheck, rfl⟩

end Config

theorem evolve_of_check_eq_error {config : Config} {evaluator : Evaluator}
    {given : Option (List Program)} {fault : ConfigError} (h : config.check given = .error fault) :
    evolve config evaluator given = .error (.config fault) := by
  rw [evolve, h]

/-- An evolution fails with the first fault of its terms. -/
theorem evolve_eq_error_iff {config : Config} {evaluator : Evaluator}
    {given : Option (List Program)} {e : EvolutionError} :
    evolve config evaluator given = .error e ↔
      ∃ fault, e = .config fault ∧ config.IsFirstFault given fault := by
  simp only [← Config.check_eq_error_iff]
  constructor
  · intro h
    cases hcheck : config.check given with
    | ok =>
      obtain ⟨run, hrun⟩ := exists_evolve (Config.check_eq_ok_iff.1 hcheck) evaluator
      rw [hrun] at h
      cases h
    | error fault =>
      rw [evolve_of_check_eq_error hcheck] at h
      cases h
      exact ⟨fault, rfl, rfl⟩
  · rintro ⟨fault, rfl, hcheck⟩
    exact evolve_of_check_eq_error hcheck

/-- What an evolution says when it fails is the first complaint. -/
theorem exists_evolve_message_iff {config : Config} {evaluator : Evaluator}
    {given : Option (List Program)} {text : String} :
    (∃ e, evolve config evaluator given = .error e ∧ e.message = text) ↔
      config.IsFirstComplaint given text := by
  simp only [evolve_eq_error_iff, Config.isFirstComplaint_iff]
  constructor
  · rintro ⟨_, ⟨fault, rfl, hfault⟩, rfl⟩
    exact ⟨fault, hfault, rfl⟩
  · rintro ⟨fault, hfault, rfl⟩
    exact ⟨_, ⟨fault, rfl, hfault⟩, rfl⟩

/-! ## The machine on terms without a fault -/

namespace Driver

section
variable {G : Type} {config : Config} {evaluator : Evaluator} {given : Option (List Program)}
  {d : Driver G} {g : G}

/-- The machine has what its phase needs: as many programs as it has to evaluate, or as many
individuals as a population has. -/
def Provided (config : Config) (d : Driver G) : Prop :=
  match d.phase with
  | .initializing => True
  | .evaluating => d.programs.length = config.populationSize.toNat
  | _ => d.population.size = config.populationSize.toNat

/-- In a final phase the population has a best individual. -/
theorem Provided.exists_best? (hvalid : config.Valid given) (h : d.Provided config)
    (hfinal : d.phase = .success ∨ d.phase = .exhausted) :
    ∃ best, d.population.best? = some best := by
  have hpos := hvalid.populationSize_pos
  have hsize : d.population.size = config.populationSize.toNat := by
    unfold Provided at h
    rcases hfinal with hphase | hphase <;> simpa only [hphase] using h
  refine Population.exists_best? (List.ne_nil_of_length_pos ?_)
  rw [Array.length_toList]
  omega

variable [RandomSource G]

variable (evaluator) in
/-- If the machine has what its phase needs, its step does not fail, and it has what the next phase
needs. -/
theorem exists_step (hvalid : config.Valid given) (h : d.Provided config) :
    ∃ d', d.step config evaluator given = .ok d' ∧ d'.Provided config := by
  have hpos := hvalid.populationSize_pos
  obtain ⟨phase, number, programs, population, history, calls, source⟩ := d
  cases phase with
  | initializing =>
    obtain ⟨programs, g, hinitial, hlength, -⟩ := initial_yields (P := fun _ => True) hvalid
      (fun _ _ => trivial) (fun _ _ _ _ _ _ => trivial) source
    simp only [step, hinitial]
    exact ⟨_, rfl, hlength⟩
  | evaluating =>
    have hlength : programs.length = config.populationSize.toNat := h
    obtain ⟨gen, hgen⟩ := Generation.exists_of? evaluator number
      (List.ne_nil_of_length_pos (l := programs) (by omega))
    obtain ⟨-, hpopulation, -⟩ := Generation.of?_eq_some_iff.1 hgen
    refine ⟨_, step_evaluating hgen, ?_⟩
    simpa [Provided, hpopulation, Population.evaluate] using hlength
  | checkingTermination =>
    simp only [step]
    split_ifs <;> exact ⟨_, rfl, h⟩
  | reproducing =>
    have hsize : population.size = config.populationSize.toNat := h
    have hnonempty : 0 < population.size := by omega
    have hbreed := breed_yields (G := G) (Palette.ne_nil_of_check hvalid.check_palette) hnonempty
      hvalid.one_le_tournamentSize config.rates
    obtain ⟨programs, g, hnext, hlength, -⟩ := hbreed.times config.populationSize.toNat source
    exact ⟨_, step_offspring hnext, hlength⟩
  | success | exhausted => exact ⟨_, rfl, h⟩

/-- On valid terms the machine always has what its phase needs. -/
theorem provided_of_reaches (hvalid : config.Valid given)
    (h : Reaches config evaluator given (start g) d) : d.Provided config := by
  induction h with
  | refl => trivial
  | tail _ hstep ih =>
    obtain ⟨d', hstep', h'⟩ := exists_step evaluator hvalid ih
    rw [hstep] at hstep'
    cases hstep'
    exact h'

end

end Driver

end StackBreeder
