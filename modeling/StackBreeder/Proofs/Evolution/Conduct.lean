import Mathlib.Data.List.TakeWhile
import StackBreeder.Proofs.Evolution.Ending

/-!
# Evolutions that come to nothing

What becomes of an evolution (`conduct`) is how it ends (`conduct_eq_error_iff`). It comes to
nothing for three reasons (`Config.Stops`): there is something to complain of in its terms, there is
no pool, or a number has too many digits. The first two are found before any call, and the third
after a generation is evaluated and before it is reported. Without limits on pools and on digits,
only the first is left (`evolve_refusal`).
-/

namespace StackBreeder

/-! ## What becomes of an evolution -/

section
variable {fails : Program → Bool} {gen : Generation} {before later : List Generation} {run : Run}
  {cause : Disruption}

theorem Generation.disruption?_eq_none_iff :
    gen.disruption? fails = none ↔
      (∀ i ∈ gen.population, fails i.program = false) ∧ gen.report.Fits := by
  grind [disruption?, Report.isWritable_iff, Array.any_eq_true']

/-- The evaluation of a generation comes before its entry in the log. -/
theorem Generation.disruption?_eq_some_iff :
    gen.disruption? fails = some cause ↔
      (cause = .evaluation ∧ ∃ i ∈ gen.population, fails i.program = true) ∨
      (cause = .digits ∧ (∀ i ∈ gen.population, fails i.program = false) ∧
        ¬ gen.report.Fits) := by
  grind [disruption?, Report.isWritable_iff, Array.any_eq_true']

theorem Run.conduct_of_forall (h : ∀ gen ∈ run.generations, gen.disruption? fails = none) :
    run.conduct fails = ⟨run.generations, .ok run⟩ := by
  have htake : run.generations.takeWhile (fun g => (g.disruption? fails).isNone) =
      run.generations :=
    List.takeWhile_eq_self_iff.2 fun gen hgen => by simp [h gen hgen]
  rw [conduct, htake, List.findSome?_eq_none_iff.2 h]

theorem Run.conduct_of_append (hgenerations : run.generations = before ++ gen :: later)
    (hbefore : ∀ earlier ∈ before, earlier.disruption? fails = none)
    (hgen : gen.disruption? fails = some cause) :
    run.conduct fails = ⟨before, .error (.disruption cause)⟩ := by
  have htake : run.generations.takeWhile (fun g => (g.disruption? fails).isNone) = before := by
    rw [hgenerations, List.takeWhile_append_of_pos fun g hg => by simp [hbefore g hg],
      List.takeWhile_cons_of_neg (by simp [hgen]), List.append_nil]
  have hfind : run.generations.findSome? (·.disruption? fails) = some cause :=
    List.findSome?_eq_some_iff.2 ⟨before, gen, later, hgenerations, hgen, hbefore⟩
  rw [conduct, htake, hfind]

/-- If the evaluator fails in a generation, and the log of those before it can be written, then the
failure of the evaluator is what stops the run. -/
theorem Run.conduct_of_fails {i : Individual}
    (hgenerations : run.generations = before ++ gen :: later)
    (hbefore : ∀ earlier ∈ before, earlier.report.Fits) (hi : i ∈ gen.population)
    (hfails : fails i.program = true) :
    (run.conduct fails).result = .error (.disruption .evaluation) := by
  have hgen : gen.disruption? fails = some .evaluation :=
    Generation.disruption?_eq_some_iff.2 (.inl ⟨rfl, i, hi, hfails⟩)
  have hfind : run.generations.findSome? (·.disruption? fails) = some .evaluation := by
    rw [hgenerations, List.findSome?_append, List.findSome?_cons, hgen]
    cases hearlier : before.findSome? (·.disruption? fails) with
    | none => rfl
    | some cause =>
      obtain ⟨earlier, hmem, hcause⟩ := List.exists_of_findSome?_eq_some hearlier
      rcases Generation.disruption?_eq_some_iff.1 hcause with ⟨rfl, -⟩ | ⟨-, -, hfits⟩
      · rfl
      · exact absurd (hbefore earlier hmem) hfits
  rw [conduct, hfind]

/-- In a run there is a first generation at which something stops it, or none. -/
theorem Run.disruption_cases (fails : Program → Bool) (run : Run) :
    (∀ gen ∈ run.generations, gen.disruption? fails = none) ∨
      ∃ before gen later cause, run.generations = before ++ gen :: later ∧
        (∀ earlier ∈ before, earlier.disruption? fails = none) ∧
        gen.disruption? fails = some cause := by
  cases hfind : run.generations.findSome? (·.disruption? fails) with
  | none => exact .inl (List.findSome?_eq_none_iff.1 hfind)
  | some cause =>
    obtain ⟨before, gen, later, hgenerations, hgen, hbefore⟩ := List.findSome?_eq_some_iff.1 hfind
    exact .inr ⟨before, gen, later, cause, hgenerations, hbefore, hgen⟩

/-- When the evaluator stops a run. -/
theorem Run.conduct_evaluation_iff :
    (run.conduct fails).result = .error (.disruption .evaluation) ↔
      ∃ before gen later, run.generations = before ++ gen :: later ∧
        (∀ earlier ∈ before, earlier.report.Fits) ∧
        ∃ i ∈ gen.population, fails i.program = true := by
  constructor
  · intro h
    rcases run.disruption_cases fails with
      hnone | ⟨before, gen, later, cause, hgenerations, hbefore, hgen⟩
    · rw [conduct_of_forall hnone] at h
      cases h
    · rw [conduct_of_append hgenerations hbefore hgen] at h
      cases h
      rcases Generation.disruption?_eq_some_iff.1 hgen with ⟨-, hfails⟩ | ⟨hcause, -⟩
      · exact ⟨before, gen, later, hgenerations, fun earlier hearlier =>
          (Generation.disruption?_eq_none_iff.1 (hbefore earlier hearlier)).2, hfails⟩
      · cases hcause
  · rintro ⟨before, gen, later, hgenerations, hbefore, i, hi, hfails⟩
    exact conduct_of_fails hgenerations hbefore hi hfails

end

section
variable {config : Config} {evaluator : Evaluator} {given : Option (List Program)} {run : Run}
  {fails : Program → Bool} {pool : Option Pool}

theorem conduct_of_fault {e : ConfigError} (hcheck : config.check given = .error e) :
    conduct fails config evaluator given = ⟨[], .error (.evolution (.config e))⟩ := by
  simp only [conduct, hcheck]

theorem conduct_of_pool {cause : Disruption} (hcheck : config.check given = .ok ())
    (hpool : config.pool = .error cause) :
    conduct fails config evaluator given = ⟨[], .error (.disruption cause)⟩ := by
  simp only [conduct, hcheck, hpool]

theorem conduct_of_evolve (hpool : config.pool = .ok pool)
    (h : evolve config evaluator given = .ok run) :
    conduct fails config evaluator given = run.conduct fails := by
  have hcheck := Config.check_eq_ok_iff.2 (evolve_eq_ok_iff.1 h).1
  simp only [conduct, hcheck, hpool, h]

/-- With an evaluator that never fails, only the log can stop an evolution. -/
theorem fits_cases (run : Run) :
    (∀ gen ∈ run.generations, gen.report.Fits) ∨
      ∃ before gen later, run.generations = before ++ gen :: later ∧
        (∀ earlier ∈ before, earlier.report.Fits) ∧ ¬ gen.report.Fits := by
  rcases run.disruption_cases fun _ => false with h | ⟨before, gen, later, _, h, hbefore, hgen⟩
  · exact .inl fun gen hgen => (Generation.disruption?_eq_none_iff.1 (h gen hgen)).2
  · refine .inr ⟨before, gen, later, h, fun earlier hearlier =>
      (Generation.disruption?_eq_none_iff.1 (hbefore earlier hearlier)).2, ?_⟩
    rcases Generation.disruption?_eq_some_iff.1 hgen with ⟨-, _, -, hfails⟩ | ⟨-, -, hfits⟩
    · cases hfails
    · exact hfits

variable (config evaluator given) in
/-- The terms of an evolution are refused, or there is no pool, or there is a run whose log can be
written, at least up to some generation. -/
theorem evolution_cases :
    (∃ e, config.check given = .error e) ∨
    (config.check given = .ok () ∧ ∃ cause, config.pool = .error cause) ∨
    ∃ pool run, config.pool = .ok pool ∧ evolve config evaluator given = .ok run ∧
      ((∀ gen ∈ run.generations, gen.report.Fits) ∨
        ∃ before gen later, run.generations = before ++ gen :: later ∧
          (∀ earlier ∈ before, earlier.report.Fits) ∧ ¬ gen.report.Fits) := by
  cases hcheck : config.check given with
  | error e => exact .inl ⟨e, rfl⟩
  | ok =>
    cases hpool : config.pool with
    | error cause => exact .inr (.inl ⟨rfl, cause, rfl⟩)
    | ok pool =>
      obtain ⟨run, hrun⟩ := exists_evolve (Config.check_eq_ok_iff.1 hcheck) evaluator
      exact .inr (.inr ⟨pool, run, rfl, hrun, fits_cases run⟩)

/-- The run of an evolution whose log can be written. -/
theorem conduct_of_fits (hpool : config.pool = .ok pool)
    (h : evolve config evaluator given = .ok run)
    (hfits : ∀ gen ∈ run.generations, gen.report.Fits) :
    conduct (fun _ => false) config evaluator given = ⟨run.generations, .ok run⟩ := by
  rw [conduct_of_evolve hpool h]
  exact Run.conduct_of_forall fun gen hgen =>
    Generation.disruption?_eq_none_iff.2 ⟨fun _ _ => rfl, hfits gen hgen⟩

/-- The generations that are reported stand before the one whose log cannot be written. -/
theorem conduct_of_not_fits {before later : List Generation} {gen : Generation}
    (hpool : config.pool = .ok pool) (h : evolve config evaluator given = .ok run)
    (hgenerations : run.generations = before ++ gen :: later)
    (hbefore : ∀ earlier ∈ before, earlier.report.Fits) (hgen : ¬ gen.report.Fits) :
    conduct (fun _ => false) config evaluator given =
      ⟨before, .error (.disruption .digits)⟩ := by
  rw [conduct_of_evolve hpool h]
  exact Run.conduct_of_append hgenerations
    (fun earlier hearlier =>
      Generation.disruption?_eq_none_iff.2 ⟨fun _ _ => rfl, hbefore earlier hearlier⟩)
    (Generation.disruption?_eq_some_iff.2 (.inr ⟨rfl, fun _ _ => rfl, hgen⟩))

/-- An evolution fails in the way it ends. -/
theorem conduct_eq_error_iff {failure : Failure} :
    (conduct (fun _ => false) config evaluator given).result = .error failure ↔
      ∃ calls, Driver.Ends config evaluator given calls (.error failure) := by
  rcases evolution_cases config evaluator given with ⟨e, hcheck⟩ | ⟨hcheck, cause, hpool⟩ |
    ⟨pool, run, hpool, hrun, hfits | ⟨before, gen, later, hgenerations, hbefore, hgen⟩⟩
  · rw [conduct_of_fault hcheck]
    simp only [Driver.ends_iff_of_fault hcheck, exists_eq_left, Except.error.injEq]
    exact eq_comm
  · rw [conduct_of_pool hcheck hpool]
    simp only [Driver.ends_iff_of_pool hcheck hpool, exists_eq_left, Except.error.injEq]
    exact eq_comm
  · obtain ⟨source, hends⟩ := Driver.ends_iff_of_fits hpool hrun hfits
    rw [conduct_of_fits hpool hrun hfits]
    simp [hends]
  · rw [conduct_of_not_fits hpool hrun hgenerations hbefore hgen]
    simp only [Driver.ends_iff_of_not_fits hpool hrun hgenerations hbefore hgen, exists_eq_left,
      Except.error.injEq]
    exact eq_comm

end

/-! ## Evolutions that come to nothing -/

/-- Why an evolution comes to nothing, and the calls that it has made by then. -/
inductive Config.Stops (config : Config) (evaluator : Evaluator) (given : Option (List Program)) :
    List Call → String → Prop
  /-- There is something to complain of in its terms. -/
  | terms {text : String} (h : config.IsFirstComplaint given text) :
    config.Stops evaluator given [] text
  /-- There is no pool. -/
  | pool {cause : Disruption} (hterms : ∀ fault, ¬ config.Fault given fault)
    (h : config.LacksPool cause) : config.Stops evaluator given [] cause.message
  /-- A number of a generation has too many digits, and no number of those before it. The generation
  has been evaluated. -/
  | digits {run : Run} {before later : List Generation} {gen : Generation}
    (hpool : ∀ cause, ¬ config.LacksPool cause) (hrun : evolve config evaluator given = .ok run)
    (hgenerations : run.generations = before ++ gen :: later)
    (hbefore : ∀ earlier ∈ before, earlier.report.Fits) (hgen : ¬ gen.report.Fits) :
    config.Stops evaluator given
      (before.flatMap (·.calls) ++ [.evaluate gen.population.programs])
      ("Exceeds the limit (4300 digits) for integer string conversion; use " ++
        "sys.set_int_max_str_digits() to increase the limit")

section
variable {config : Config} {evaluator : Evaluator} {given : Option (List Program)} {run : Run}
  {calls : List Call}

theorem Config.exists_pool_iff :
    (∃ pool, config.pool = .ok pool) ↔ ∀ cause, ¬ config.LacksPool cause := by
  simp only [← pool_eq_error_iff]
  cases config.pool with
  | ok pool => simp
  | error cause => simp

/-- The reasons of `Config.Stops` are those for which an evolution fails. -/
theorem exists_ends_message_iff {text : String} :
    (∃ failure, Driver.Ends config evaluator given calls (.error failure) ∧
        failure.message = text) ↔ config.Stops evaluator given calls text := by
  constructor
  · rintro ⟨failure, hends, rfl⟩
    rcases evolution_cases config evaluator given with ⟨e, hcheck⟩ | ⟨hcheck, cause, hpool⟩ |
      ⟨pool, run, hpool, hrun, hfits | ⟨before, gen, later, hgenerations, hbefore, hgen⟩⟩
    · obtain ⟨rfl, hfailure⟩ := (Driver.ends_iff_of_fault hcheck).1 hends
      cases hfailure
      exact .terms (Config.isFirstComplaint_iff.2 ⟨e, Config.check_eq_error_iff.1 hcheck, rfl⟩)
    · obtain ⟨rfl, hfailure⟩ := (Driver.ends_iff_of_pool hcheck hpool).1 hends
      cases hfailure
      exact .pool (Config.not_fault_of_check hcheck) (Config.pool_eq_error_iff.1 hpool)
    · obtain ⟨source, hiff⟩ := Driver.ends_iff_of_fits hpool hrun hfits
      cases ((hiff _ _).1 hends).2
    · obtain ⟨rfl, hfailure⟩ :=
        (Driver.ends_iff_of_not_fits hpool hrun hgenerations hbefore hgen).1 hends
      cases hfailure
      exact .digits (Config.exists_pool_iff.1 ⟨pool, hpool⟩) hrun hgenerations hbefore hgen
  · rintro (h | ⟨hterms, hpool⟩ | ⟨hpool, hrun, hgenerations, hbefore, hgen⟩)
    · obtain ⟨e, he, rfl⟩ := Config.isFirstComplaint_iff.1 h
      exact ⟨_, .refused (Config.check_eq_error_iff.2 he), rfl⟩
    · have hcheck := Config.check_eq_ok_iff.2 (Config.valid_of_forall_not_fault hterms)
      exact ⟨_, .poolless hcheck (Config.pool_eq_error_iff.2 hpool), rfl⟩
    · obtain ⟨pool, hpool⟩ := Config.exists_pool_iff.2 hpool
      exact ⟨_, (Driver.ends_iff_of_not_fits hpool hrun hgenerations hbefore hgen).2 ⟨rfl, rfl⟩,
        rfl⟩

/-- An evolution that is not stopped has a run, and all of it is reported. -/
theorem exists_conduct_of_not_stops
    (h : ∀ calls text, ¬ config.Stops evaluator given calls text) :
    ∃ run, evolve config evaluator given = .ok run ∧
      conduct (fun _ => false) config evaluator given = ⟨run.generations, .ok run⟩ := by
  rcases evolution_cases config evaluator given with ⟨e, hcheck⟩ | ⟨hcheck, cause, hpool⟩ |
    ⟨pool, run, hpool, hrun, hfits | ⟨before, gen, later, hgenerations, hbefore, hgen⟩⟩
  · exact absurd (exists_ends_message_iff.1 ⟨_, .refused hcheck, rfl⟩) (h _ _)
  · exact absurd (exists_ends_message_iff.1 ⟨_, .poolless hcheck hpool, rfl⟩) (h _ _)
  · exact ⟨run, hrun, conduct_of_fits hpool hrun hfits⟩
  · exact absurd (.digits (Config.exists_pool_iff.1 ⟨pool, hpool⟩) hrun hgenerations hbefore hgen)
      (h _ _)

end

/-- The terms of an evolution determine whether there is something to complain of. Without limits on
pools and on digits this is the only reason for which an evolution fails, and it fails with the
first complaint. With limits, it comes to nothing for the reasons of `Config.Stops`: with the first
complaint or without a pool before any call, or with a number that cannot be logged. If there is no
such reason, all generations of its run are reported. And on terms that are accepted no step of the
machine fails in any state, whatever is drawn, and in the end the population has a best individual.
-/
theorem evolve_refusal (config : Config) (evaluator : Evaluator) (given : Option (List Program)) :
    ((∃ text, config.IsFirstComplaint given text) ↔
      config.populationSize ≤ 0 ∨ config.maxGenerations < 0 ∨ config.maxProgramSize < 1 ∨
      config.tournamentSize < 1 ∨ config.executor ∉ ["thread", "process"] ∨
      (config.palette = [] ∨ ∃ name, .sym name ∈ config.palette ∧ name ∉ Registry.standard.names) ∨
      ∃ programs ∈ given, (programs.length : Int) ≠ config.populationSize) ∧
    (∀ text, (∃ e, evolve config evaluator given = .error e ∧ e.message = text) ↔
      config.IsFirstComplaint given text) ∧
    (∀ calls text, (∃ failure, Driver.Ends config evaluator given calls (.error failure) ∧
      failure.message = text) ↔ config.Stops evaluator given calls text) ∧
    (∀ failure, (conduct (fun _ => false) config evaluator given).result = .error failure ↔
      ∃ calls, Driver.Ends config evaluator given calls (.error failure)) ∧
    ((∀ calls text, ¬ config.Stops evaluator given calls text) →
      ∃ run, evolve config evaluator given = .ok run ∧
        conduct (fun _ => false) config evaluator given = ⟨run.generations, .ok run⟩) ∧
    ((∀ fault, ¬ config.Fault given fault) →
      ∀ (G : Type) [RandomSource G] (g : G) (d : Driver G),
        Driver.Reaches config evaluator given (.start g) d →
          (∃ d', d.step config evaluator given = .ok d') ∧
          (d.phase = .success ∨ d.phase = .exhausted →
            ∃ best, d.population.best? = some best)) := by
  refine ⟨?_, fun text => exists_evolve_message_iff, fun calls text => exists_ends_message_iff,
    fun failure => conduct_eq_error_iff, exists_conduct_of_not_stops, ?_⟩
  · rw [Config.exists_isFirstComplaint_iff, Config.exists_fault_iff]
  · intro h G _ g d hreaches
    have hvalid := Config.valid_of_forall_not_fault h
    have hprovided := Driver.provided_of_reaches hvalid hreaches
    obtain ⟨d', hstep, -⟩ := Driver.exists_step evaluator hvalid hprovided
    exact ⟨⟨d', hstep⟩, hprovided.exists_best? hvalid⟩

/-- Of three complaints the first one is made. A given program without items makes an evolution that
is reported, and in which no step fails. -/
theorem evolve_refusal_first :
    (∃ failure,
      Driver.Ends { maxGenerations := -1, executor := "fiber", palette := [.block [], .sym "nope"] }
          (fun p => .ofErrors [p.length]) none [] (.error failure) ∧
        failure.message = "max_generations must be >= 0") ∧
    (∃ run,
      evolve { populationSize := 1, maxGenerations := 0 } (fun p => .ofErrors [1, p.length])
          (some [[]]) = .ok run ∧
        conduct (fun _ => false) { populationSize := 1, maxGenerations := 0 }
          (fun p => .ofErrors [1, p.length]) (some [[]]) = ⟨run.generations, .ok run⟩) ∧
    ∀ d : Driver Twister,
      Driver.Reaches { populationSize := 1, maxGenerations := 0 }
          (fun p => .ofErrors [1, p.length]) (some [[]]) (.start (Twister.ofSeed 0)) d →
        ∃ d', d.step { populationSize := 1, maxGenerations := 0 }
          (fun p => .ofErrors [1, p.length]) (some [[]]) = .ok d' := by
  have hcheck : Config.check { populationSize := 1, maxGenerations := 0 } (some [[]]) = .ok () := by
    decide
  have hfault := Config.not_fault_of_check hcheck
  have hfirst : Config.IsFirstComplaint
      { maxGenerations := -1, executor := "fiber", palette := [.block [], .sym "nope"] } none
      "max_generations must be >= 0" :=
    Config.isFirstComplaint_iff.2 ⟨.maxGenerations, Config.check_eq_error_iff.1 (by decide), rfl⟩
  have hstops (calls : List Call) (text : String) :
      ¬ Config.Stops { populationSize := 1, maxGenerations := 0 }
        (fun p => .ofErrors [1, p.length]) (some [[]]) calls text := by
    rintro (h | ⟨-, ⟨-, hworkers⟩ | ⟨-, hworkers, -⟩⟩ | ⟨-, hrun, hgenerations, -, hfits⟩)
    · obtain ⟨e, h⟩ := Config.exists_isFirstComplaint_iff.1 ⟨_, h⟩
      exact hfault e h
    · exact absurd hworkers (by decide)
    · exact absurd hworkers (by decide)
    · rw [generations_of_single hrun rfl (.pure rfl)] at hgenerations
      have hmem := hgenerations.symm ▸ List.mem_append_right _ (List.mem_cons_self ..)
      rw [List.mem_singleton.1 hmem] at hfits
      exact hfits (Report.fits_single_iff.2 (by decide))
  refine ⟨((evolve_refusal _ _ _).2.2.1 _ _).2 (.terms hfirst),
    (evolve_refusal _ _ _).2.2.2.2.1 hstops, fun d hd => ?_⟩
  exact ((evolve_refusal _ _ _).2.2.2.2.2 hfault Twister _ d hd).1

/-- The only program of this evolution has a total error that cannot be written. -/
theorem ends_of_not_fits {n : Int} (hn : ¬ Text.Fits n) :
    Driver.Ends { populationSize := 1, maxGenerations := 0 } (fun _ => .ofErrors [n]) (some [[]])
      [.evaluate [[]]] (.error (.disruption .digits)) := by
  have hcheck : Config.check { populationSize := 1, maxGenerations := 0 } (some [[]]) = .ok () := by
    decide
  obtain ⟨run, hrun⟩ := exists_evolve (Config.check_eq_ok_iff.1 hcheck) fun _ => .ofErrors [n]
  have hgenerations := generations_of_single hrun rfl (.pure rfl)
  have hfits : ¬ Text.Fits (Score.ofErrors [n]).total := by
    simpa [Score.ofErrors, totalError] using hn
  exact (Driver.ends_iff_of_not_fits rfl hrun
    (show run.generations = [] ++ _ :: [] from hgenerations) (by simp)
    (mt Report.fits_single_iff.1 hfits)).2 ⟨rfl, rfl⟩

/-- Nothing is wrong with the terms of this evolution, but it comes to nothing. -/
theorem evolve_refusal_digits :
    (∀ fault,
      ¬ Config.Fault { populationSize := 1, maxGenerations := 0 } (some [[]]) fault) ∧
    Driver.Ends { populationSize := 1, maxGenerations := 0 }
      (fun _ => .ofErrors [.ofNat (Nat.pow 10 Text.maxDigits)]) (some [[]]) [.evaluate [[]]]
      (.error (.disruption .digits)) :=
  ⟨Config.not_fault_of_check (by decide), ends_of_not_fits (Text.not_fits (Nat.lt_irrefl _))⟩

end StackBreeder
