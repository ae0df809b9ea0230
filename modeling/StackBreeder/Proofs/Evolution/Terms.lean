import StackBreeder.Proofs.Evolution.Course

/-!
# Valid terms

`Config.Valid` lists what the terms of an evolution, and the programs it is to start from, must
satisfy; the check accepts nothing else (`Config.check_eq_ok_iff`). On valid terms there is always a
first generation (`initial_yields`) and breeding never fails (`offspring_hereditary`), so that an
evolution succeeds exactly if its terms are valid, with a run that is determined by its course
(`evolve_eq_ok_iff`, `exists_evolve`).
-/

namespace StackBreeder

open Breeding

/-- A palette that can be used has an item. -/
theorem Palette.ne_nil_of_check {palette : Palette} {reg : Registry}
    (h : palette.check reg = .ok ()) : palette ≠ [] := by
  rintro rfl
  cases h

/-- What the terms of an evolution must satisfy, and the programs it is to start from, if any. -/
structure Config.Valid (config : Config) (given : Option (List Program)) : Prop where
  populationSize_pos : 0 < config.populationSize
  maxGenerations_nonneg : 0 ≤ config.maxGenerations
  one_le_maxProgramSize : 1 ≤ config.maxProgramSize
  one_le_tournamentSize : 1 ≤ config.tournamentSize
  executor_mem : config.executor ∈ ["thread", "process"]
  check_palette : config.palette.check .standard = .ok ()
  length_given : ∀ programs ∈ given, (programs.length : Int) = config.populationSize

/-- The check accepts exactly the valid terms. -/
theorem Config.check_eq_ok_iff {config : Config} {given : Option (List Program)} :
    config.check given = .ok () ↔ config.Valid given := by
  constructor
  · intro h
    unfold check at h
    split_ifs at h with hpopulation hgenerations hprogram htournament hexecutor
    split at h
    · cases h
    · next hpalette =>
      refine ⟨by omega, by omega, by omega, by omega, hexecutor, hpalette, ?_⟩
      rintro programs ⟨⟩
      by_contra hlength
      simp [hlength] at h
  · rintro ⟨hpopulation, hgenerations, hprogram, htournament, hexecutor, hpalette, hlength⟩
    unfold check
    rw [if_neg (by omega), if_neg (by omega), if_neg (by omega), if_neg (by omega),
      if_neg (not_not.2 hexecutor), hpalette]
    cases given with
    | none => rfl
    | some programs => exact if_neg (not_not.2 (hlength programs rfl))

section
variable {G : Type} [RandomSource G] {config : Config} {evaluator : Evaluator}
  {given : Option (List Program)} {P : Value → Prop}

/-- The programs of the first generation: the given ones, or random ones. -/
def initial (config : Config) (given : Option (List Program)) : Breeding G (List Program) :=
  match given with
  | some programs => pure programs
  | none => founders config

theorem evolution_eq (config : Config) (evaluator : Evaluator) (given : Option (List Program)) :
    (evolution config evaluator given : Breeding G Run) =
      initial config given >>= advance config evaluator config.maxGenerations.toNat 0 := by
  cases given <;> rfl

/-- As many programs as the population has members, each with the property `R`. -/
def Fills (config : Config) (R : Program → Prop) (programs : List Program) : Prop :=
  programs.length = config.populationSize.toNat ∧ ∀ p ∈ programs, R p

/-- As many programs as the population has members, all of whose items satisfy `P`. -/
def MadeOf (config : Config) (P : Value → Prop) : List Program → Prop :=
  Fills config fun p => ∀ v ∈ p, P v

/-- On valid terms the first generation has its programs: they have what the given programs have,
or random programs within the limit on their size. -/
theorem initial_yields_of (h : config.Valid given) {R : Program → Prop}
    (hgiven : ∀ programs ∈ given, ∀ p ∈ programs, R p)
    (hrandom : given = none → ∀ p : Program, (p ≠ [] ∧ p.length ≤ config.maxProgramSize) →
      (∀ v ∈ p, v ∈ config.palette) → R p) :
    Yields (initial config given : Breeding G (List Program)) (Fills config R) := by
  cases given with
  | some programs =>
    have hlength := h.length_given programs rfl
    exact .pure ⟨by omega, hgiven programs rfl⟩
  | none =>
    have hdraw := Palette.drawProgram_yields (G := G) (Palette.ne_nil_of_check h.check_palette)
      h.one_le_maxProgramSize
    refine (hdraw.times config.populationSize.toNat).mono fun programs ⟨hlength, hall⟩ => ?_
    exact ⟨hlength, fun p hp => hrandom rfl p (hall p hp).1 (hall p hp).2⟩

/-- On valid terms the first generation has its programs, with no other items than those of the
palette and of the given programs. -/
theorem initial_yields (h : config.Valid given) (hpalette : ∀ v ∈ config.palette, P v)
    (hgiven : ∀ programs ∈ given, ∀ p ∈ programs, ∀ v ∈ p, P v) :
    Yields (initial config given : Breeding G (List Program)) (MadeOf config P) :=
  initial_yields_of h hgiven fun _ _ _ hitems v hv => hpalette v (hitems v hv)

/-- With a palette of one item, and no room for more, the first programs consist of this item. -/
theorem initial_yields_singleton {v : Value} (h : config.Valid none)
    (hpalette : config.palette = [v]) (hsize : config.maxProgramSize = 1) :
    Yields (initial config none : Breeding G (List Program)) (Fills config (· = [v])) := by
  refine initial_yields_of h nofun fun _ p ⟨hne, hlength⟩ hitems => ?_
  have hpos := List.length_pos_iff.2 hne
  obtain ⟨w, rfl⟩ := List.length_eq_one_iff.1 (show p.length = 1 by omega)
  obtain rfl : w = v := by simpa [hpalette] using hitems
  rfl

/-- On valid terms breeding hands on to the generation after next what one new program has. -/
theorem offspring_hereditary_of (h : config.Valid given) (evaluator : Evaluator)
    {R : Nat → Program → Prop}
    (hbreed : ∀ number (population : Population), 0 < population.size →
      (∀ i ∈ population, R number i.program) →
      Yields (breed population config.tournamentSize config.palette config.rates :
        Breeding G Program) (R (number + 1))) :
    Hereditary evaluator (offspring (G := G) config) fun number => Fills config (R number) where
  ne_nil := by
    rintro _ programs ⟨hlength, -⟩
    have hpos := h.populationSize_pos
    exact List.ne_nil_of_length_pos (by omega)
  yields := by
    rintro number programs ⟨hlength, hprograms⟩
    have hpos := h.populationSize_pos
    have hsize : 0 < (Population.evaluate evaluator programs).size := by
      simp [Population.evaluate]
      omega
    refine (hbreed number _ hsize fun i hi => ?_).times config.populationSize.toNat
    obtain ⟨p, hp, rfl⟩ := Population.exists_of_mem_evaluate hi
    exact hprograms p hp

/-- On valid terms breeding hands on what is true of all items. -/
theorem offspring_hereditary (h : config.Valid given) (evaluator : Evaluator)
    (hpalette : ∀ v ∈ config.palette, P v) :
    Hereditary evaluator (offspring (G := G) config) fun _ => MadeOf config P := by
  refine offspring_hereditary_of (R := fun _ p => ∀ v ∈ p, P v) h evaluator
    fun number population hsize hitems => ?_
  refine (breed_yields (Palette.ne_nil_of_check h.check_palette) hsize h.one_le_tournamentSize
    config.rates).mono fun child ⟨_, hchild⟩ v hv => ?_
  rcases hchild v hv with hv | ⟨i, hi, hv⟩
  · exact hpalette v hv
  · exact hitems i hi v hv

/-- An evolution succeeds exactly on valid terms, and its run is its course from the first
generation on. -/
theorem evolve_eq_ok_iff {run : Run} :
    evolve config evaluator given = .ok run ↔
      config.Valid given ∧ ∃ programs g g',
        (initial config given).run (Twister.ofSeed config.seed) = (.ok programs, g) ∧
        Advances evaluator (offspring config) config.maxGenerations.toNat 0 programs g run g' := by
  rw [evolve, evolution_eq, ← Config.check_eq_ok_iff]
  constructor
  · intro h
    split at h
    · cases h
    · next hcheck =>
      split at h
      · cases h
      · next run' hrun =>
        cases h
        obtain ⟨programs, g, hinitial, hadvance⟩ := exists_of_run_bind (Prod.ext hrun rfl)
        exact ⟨hcheck, programs, g, _, hinitial, advance_run_iff.1 hadvance⟩
  · rintro ⟨hcheck, programs, g, g', hinitial, hadvance⟩
    rw [hcheck, run_bind_of_ok hinitial, advance_run_iff.2 hadvance]

/-- On valid terms an evolution succeeds. -/
theorem exists_evolve (h : config.Valid given) (evaluator : Evaluator) :
    ∃ run, evolve config evaluator given = .ok run := by
  obtain ⟨programs, g, hinitial, hprograms⟩ := initial_yields (P := fun _ => True) h
    (fun _ _ => trivial) (fun _ _ _ _ _ _ => trivial) (Twister.ofSeed config.seed)
  have hhereditary := offspring_hereditary (G := Twister) (P := fun _ => True) h evaluator
    fun _ _ => trivial
  obtain ⟨run, g', hadvance⟩ :=
    hhereditary.exists_advances hprograms config.maxGenerations.toNat g
  exact ⟨run, evolve_eq_ok_iff.2 ⟨h, programs, g, g', hinitial, hadvance⟩⟩

/-- The evolution of one program for one generation. -/
theorem generations_of_single {run : Run} {p : Program}
    (h : evolve config evaluator given = .ok run) (hlast : config.maxGenerations = 0)
    (hinitial : Yields (initial config given : Breeding Twister (List Program)) (· = [p])) :
    run.generations = [⟨0, .evaluate evaluator [p], .ofProgram evaluator p⟩] := by
  obtain ⟨-, programs, g, g', hrun, hadvance⟩ := evolve_eq_ok_iff.1 h
  obtain rfl := hinitial.of_run hrun
  rw [hlast] at hadvance
  exact hadvance.generations_eq_singleton rfl

/-- The evolution of one program that is drawn from a palette of one item. -/
theorem generations_of_singleton {run : Run} {v : Value}
    (h : evolve config evaluator none = .ok run) (hpopulation : config.populationSize = 1)
    (hlast : config.maxGenerations = 0) (hpalette : config.palette = [v])
    (hsize : config.maxProgramSize = 1) :
    run.generations = [⟨0, .evaluate evaluator [[v]], .ofProgram evaluator [v]⟩] := by
  refine generations_of_single h hlast ?_
  refine (initial_yields_singleton (evolve_eq_ok_iff.1 h).1 hpalette hsize).mono
    fun programs ⟨hlength, hall⟩ => ?_
  rw [hpopulation] at hlength
  obtain ⟨p, rfl⟩ := List.length_eq_one_iff.1 hlength
  rw [hall p (.head _)]

/-- An evolution is over when it has a run. -/
theorem phase_of_evolve {run : Run} (h : evolve config evaluator given = .ok run) :
    run.phase = .success ∨ run.phase = .exhausted := by
  obtain ⟨-, programs, g, g', -, hadvance⟩ := evolve_eq_ok_iff.1 h
  exact hadvance.phase_cases.imp And.left And.left

/-- Every generation of an evolution has its programs, evaluated, and these have no other items than
those of the palette and of the given programs. -/
theorem forall_generation_of_evolve {run : Run} (h : evolve config evaluator given = .ok run)
    (hpalette : ∀ v ∈ config.palette, P v)
    (hgiven : ∀ programs ∈ given, ∀ p ∈ programs, ∀ v ∈ p, P v) :
    ∀ gen ∈ run.generations, ∃ programs, MadeOf config P programs ∧
      Generation.of? gen.number (.evaluate evaluator programs) = some gen := by
  obtain ⟨hvalid, programs, g, g', hinitial, hadvance⟩ := evolve_eq_ok_iff.1 h
  exact (offspring_hereditary hvalid evaluator hpalette).forall_generation hadvance
    ((initial_yields hvalid hpalette hgiven).of_run hinitial)

/-- Every generation of an evolution has as many programs as it should, evaluated. -/
theorem exists_programs_of_evolve {run : Run} (h : evolve config evaluator given = .ok run) :
    ∀ gen ∈ run.generations, ∃ programs : List Program,
      programs.length = config.populationSize.toNat ∧
        Generation.of? gen.number (.evaluate evaluator programs) = some gen := by
  intro gen hmem
  obtain ⟨programs, ⟨hlength, -⟩, hgen⟩ := forall_generation_of_evolve (P := fun _ => True) h
    (fun _ _ => trivial) (fun _ _ _ _ _ _ => trivial) gen hmem
  exact ⟨programs, hlength, hgen⟩

end

end StackBreeder
