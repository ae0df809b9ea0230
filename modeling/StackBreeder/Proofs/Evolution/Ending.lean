import StackBreeder.Evolution.Conduct
import StackBreeder.Proofs.Evolution.Refusal

/-!
# The ends of evolutions

An evolution that is carried out has a pool of workers, and it logs each generation before it
reports it. This is told by the machine of an evolution, which goes on as long as its reports can be
logged (`Driver.Proceeds`). It halts when a step fails, when the log cannot be written, or in a
final phase (`Driver.Halts`), and there is only one state in which it does (`Driver.Rests.eq`).

`Driver.Ends` says how the evolution ends then, and with which calls: at once if its terms are
refused (`Driver.ends_iff_of_fault`) or there is no pool (`Driver.ends_iff_of_pool`), and otherwise
with its run (`Driver.ends_iff_of_fits`) or in the first generation whose log cannot be written
(`Driver.ends_iff_of_not_fits`).
-/

namespace StackBreeder

open Breeding

/-! ## Limits -/

/-- An integer has no more digits than may be written. -/
def Text.Fits (n : Int) : Prop := (Nat.toDigits 10 n.natAbs).length ≤ 4300

instance (n : Int) : Decidable (Text.Fits n) :=
  inferInstanceAs (Decidable ((Nat.toDigits 10 n.natAbs).length ≤ 4300))

theorem Text.length_toDigits_le_iff {n k : Nat} (hk : 0 < k) :
    (Nat.toDigits 10 n).length ≤ k ↔ n < Nat.pow 10 k :=
  Nat.length_toDigits_le_iff (by decide) hk

theorem Text.fits_iff {n : Int} : Text.Fits n ↔ n.natAbs < Nat.pow 10 maxDigits :=
  length_toDigits_le_iff (k := maxDigits) (by decide)

theorem Text.isWritable_iff {n : Int} : Text.isWritable n = true ↔ Text.Fits n :=
  decide_eq_true_iff.trans fits_iff.symm

/-- An integer fits if its magnitude is below a power of ten whose exponent is within the limit. -/
theorem Text.fits_of_lt {n : Int} {k : Nat} (hpos : 0 < k) (hk : k ≤ 4300)
    (h : n.natAbs < Nat.pow 10 k) : Text.Fits n :=
  ((length_toDigits_le_iff hpos).2 h).trans hk

theorem Text.not_fits {m : Nat} (h : ¬ m < Nat.pow 10 maxDigits) : ¬ Text.Fits (.ofNat m) :=
  fun hfits => h (fits_iff.1 hfits)

/-- The numbers that are logged of a generation can be written. -/
def Report.Fits (r : Report) : Prop :=
  ∀ n ∈ [r.generation, r.bestTotal, r.meanTotal], Text.Fits n

theorem Report.isWritable_iff {r : Report} : r.isWritable = true ↔ r.Fits := by
  simp only [isWritable, Bool.and_eq_true, Text.isWritable_iff, Fits, List.forall_mem_cons,
    List.not_mem_nil, false_imp_iff, implies_true, and_true, and_assoc]

/-- The mean of one total is the total. -/
theorem Report.fits_single_iff {evaluator : Evaluator} {p : Program} :
    (Generation.mk 0 (.evaluate evaluator [p]) (.ofProgram evaluator p)).report.Fits ↔
      Text.Fits (evaluator p).total := by
  have hzero : Text.Fits 0 := by decide
  simp [Fits, Generation.report, Generation.meanTotal, Generation.sumTotals, totalError,
    Population.evaluate, Individual.ofProgram, hzero]

/-- Why there is no pool for an evolution. -/
inductive Config.LacksPool (config : Config) : Disruption → Prop
  | processes (hexecutor : config.executor = "process") (hworkers : 2147483647 ≤ config.workers) :
    config.LacksPool .pool
  /-- The size of a pool is logged. The number of processes always fits. -/
  | digits (hexecutor : config.executor ≠ "process") (hworkers : 1 < config.workers)
    (hfits : ¬ Text.Fits config.workers) : config.LacksPool .digits

theorem Config.pool_eq_error_iff {config : Config} {d : Disruption} :
    config.pool = .error d ↔ config.LacksPool d := by
  have hmax : Pool.maxProcesses = 2147483646 := rfl
  unfold pool
  split_ifs with hone hprocesses hfits
  · refine iff_of_false nofun ?_
    rintro (⟨-, hworkers⟩ | ⟨-, hworkers, -⟩) <;> omega
  · constructor
    · rintro ⟨⟩
      exact .processes hprocesses.1 (by omega)
    · rintro (_ | ⟨hexecutor, -, -⟩)
      · rfl
      · exact absurd hprocesses.1 hexecutor
  · refine iff_of_false nofun ?_
    rintro (⟨hexecutor, hworkers⟩ | ⟨-, -, hnot⟩)
    · exact hprocesses ⟨hexecutor, by omega⟩
    · exact hnot (Text.isWritable_iff.1 hfits)
  · rw [Text.isWritable_iff] at hfits
    constructor
    · rintro ⟨⟩
      refine .digits (fun hexecutor => hfits ?_) (by omega) hfits
      have hle : config.workers ≤ Pool.maxProcesses := by
        by_contra hlt
        exact hprocesses ⟨hexecutor, by omega⟩
      refine Text.fits_of_lt (k := 10) (by decide) (by decide) ?_
      have hpow : Nat.pow 10 10 = 10000000000 := rfl
      omega
    · rintro (⟨hexecutor, hworkers⟩ | _)
      · exact absurd ⟨hexecutor, by omega⟩ hprocesses
      · rfl

/-! ## The machine that logs -/

namespace Driver

section
variable {G : Type} {config : Config} {evaluator : Evaluator} {given : Option (List Program)}
  {d d' d₀ d₁ d₂ : Driver G}

/-- The reports of the machine could be logged. -/
def IsLogged (d : Driver G) : Prop := ∀ r ∈ d.history, r.Fits

theorem IsLogged.of_history (h : d'.IsLogged) (hhistory : d.history <+: d'.history) : d.IsLogged :=
  fun r hr => h r (hhistory.subset hr)

variable [RandomSource G]

/-- The machine gets from one state to another, and what it reports on the way can be logged. -/
def Proceeds (config : Config) (evaluator : Evaluator) (given : Option (List Program)) :
    Driver G → Driver G → Prop :=
  Relation.ReflTransGen fun d d' => d.step config evaluator given = .ok d' ∧ d'.IsLogged

/-- Reports are only added. -/
theorem history_prefix_of_step (h : d.step config evaluator given = .ok d') :
    d.history <+: d'.history := by
  unfold step at h
  split at h
  · split at h <;> cases h
    exact List.prefix_refl _
  · dsimp only at h
    split at h <;> cases h
    exact List.prefix_append _ _
  · split_ifs at h <;> cases h
    all_goals exact List.prefix_refl _
  · split at h <;> cases h
    exact List.prefix_refl _
  all_goals
    cases h
    exact List.prefix_refl _

/-- If the reports of a state can be logged, then so can those on the way. -/
theorem proceeds_of_reaches (h : Reaches config evaluator given d d') (hlogged : d'.IsLogged) :
    Proceeds config evaluator given d d' := by
  induction h with
  | refl => exact .refl
  | tail _ hstep ih =>
    have hbefore := ih (hlogged.of_history (history_prefix_of_step hstep))
    exact hbefore.tail ⟨hstep, hlogged⟩

/-- The machine gets to no other state. -/
def Rests (config : Config) (evaluator : Evaluator) (given : Option (List Program))
    (d : Driver G) : Prop :=
  ∀ d', d.step config evaluator given = .ok d' → d'.IsLogged → d' = d

theorem Rests.eq_of_proceeds (hrests : d.Rests config evaluator given)
    (h : Proceeds config evaluator given d d') : d' = d := by
  induction h with
  | refl => rfl
  | tail _ hstep ih =>
    subst ih
    exact hrests _ hstep.1 hstep.2

/-- There is one state in which the machine comes to rest. -/
theorem Rests.eq (hrests₁ : d₁.Rests config evaluator given)
    (hrests₂ : d₂.Rests config evaluator given) (h₁ : Proceeds config evaluator given d₀ d₁)
    (h₂ : Proceeds config evaluator given d₀ d₂) : d₁ = d₂ := by
  have hunique : Relator.RightUnique fun d d' : Driver G =>
      d.step config evaluator given = .ok d' ∧ d'.IsLogged := by
    intro d d' d'' hstep hstep'
    exact Except.ok.inj (hstep.1.symm.trans hstep'.1)
  rcases Relation.ReflTransGen.total_of_right_unique hunique h₁ h₂ with h | h
  · exact (hrests₁.eq_of_proceeds h).symm
  · exact hrests₂.eq_of_proceeds h

theorem step_of_final (hfinal : d.phase = .success ∨ d.phase = .exhausted) :
    d.step config evaluator given = .ok d := by
  rcases hfinal with hphase | hphase <;> simp only [step, hphase]

/-- How the machine halts in a state, and the calls that it has made by then. -/
inductive Halts (config : Config) (evaluator : Evaluator) (given : Option (List Program))
    (d : Driver G) : List Call → Except Failure (Driver G × Individual) → Prop
  /-- Its step fails. -/
  | failed {e : BreedingError} (hstep : d.step config evaluator given = .error e) :
    Halts config evaluator given d d.calls (.error (.evolution (.breeding e)))
  /-- Its programs have been evaluated, but what is to be reported cannot be logged. -/
  | unwritable {d' : Driver G} (hstep : d.step config evaluator given = .ok d')
    (hlog : ¬ d'.IsLogged) :
    Halts config evaluator given d (d.calls ++ [.evaluate d.programs])
      (.error (.disruption .digits))
  /-- In a final phase there is no best individual. -/
  | leaderless (hfinal : d.phase = .success ∨ d.phase = .exhausted)
    (hbest : d.population.best? = none) :
    Halts config evaluator given d d.calls (.error (.evolution (.breeding .emptyPopulation)))
  | finished {best : Individual} (hfinal : d.phase = .success ∨ d.phase = .exhausted)
    (hbest : d.population.best? = some best) :
    Halts config evaluator given d d.calls (.ok (d, best))

/-- The machine rests where it halts. -/
theorem Halts.rests {calls : List Call} {result : Except Failure (Driver G × Individual)}
    (h : Halts config evaluator given d calls result) : d.Rests config evaluator given := by
  intro d' hstep' hlogged
  cases h with
  | failed hstep =>
    rw [hstep] at hstep'
    cases hstep'
  | unwritable hstep hlog =>
    rw [hstep] at hstep'
    cases hstep'
    exact absurd hlogged hlog
  | leaderless hfinal | finished hfinal =>
    rw [step_of_final hfinal] at hstep'
    exact (Except.ok.inj hstep').symm

end

/-! ## The end of an evolution -/

/-- How an evolution ends, and the calls that it has made by then. -/
inductive Ends (config : Config) (evaluator : Evaluator) (given : Option (List Program)) :
    List Call → Except Failure (Driver Twister × Individual) → Prop
  /-- The terms are checked before there is a pool. -/
  | refused {e : ConfigError} (hcheck : config.check given = .error e) :
    Ends config evaluator given [] (.error (.evolution (.config e)))
  /-- There is a pool before the machine takes its first step. -/
  | poolless {cause : Disruption} (hcheck : config.check given = .ok ())
    (hpool : config.pool = .error cause) :
    Ends config evaluator given [] (.error (.disruption cause))
  | halted {d : Driver Twister} {pool : Option Pool} {calls : List Call}
    {result : Except Failure (Driver Twister × Individual)} (hcheck : config.check given = .ok ())
    (hpool : config.pool = .ok pool)
    (hproceeds : Proceeds config evaluator given (start (Twister.ofSeed config.seed)) d)
    (hhalts : Halts config evaluator given d calls result) :
    Ends config evaluator given calls result

section
variable {config : Config} {evaluator : Evaluator} {given : Option (List Program)} {run : Run}
  {calls : List Call} {result : Except Failure (Driver Twister × Individual)} {pool : Option Pool}

/-- On terms that are refused there is no other end. -/
theorem ends_iff_of_fault {e : ConfigError} (hcheck : config.check given = .error e) :
    Ends config evaluator given calls result ↔
      calls = [] ∧ result = .error (.evolution (.config e)) := by
  constructor
  · rintro (hcheck' | ⟨hcheck', -⟩ | ⟨hcheck', -, -, -⟩)
    all_goals
      rw [hcheck] at hcheck'
      cases hcheck'
    exact ⟨rfl, rfl⟩
  · rintro ⟨rfl, rfl⟩
    exact .refused hcheck

/-- Without a pool there is no other end. -/
theorem ends_iff_of_pool {cause : Disruption} (hcheck : config.check given = .ok ())
    (hpool : config.pool = .error cause) :
    Ends config evaluator given calls result ↔
      calls = [] ∧ result = .error (.disruption cause) := by
  constructor
  · rintro (hcheck' | ⟨-, hpool'⟩ | ⟨-, hpool', -, -⟩)
    · rw [hcheck] at hcheck'
      cases hcheck'
    · rw [hpool] at hpool'
      cases hpool'
      exact ⟨rfl, rfl⟩
    · rw [hpool] at hpool'
      cases hpool'
  · rintro ⟨rfl, rfl⟩
    exact .poolless hcheck hpool

/-- With a pool the end is that of the state in which the machine rests. -/
theorem ends_iff_of_rests {d : Driver Twister} (hcheck : config.check given = .ok ())
    (hpool : config.pool = .ok pool)
    (hproceeds : Proceeds config evaluator given (start (Twister.ofSeed config.seed)) d)
    (hrests : d.Rests config evaluator given) :
    Ends config evaluator given calls result ↔ Halts config evaluator given d calls result := by
  constructor
  · rintro (hcheck' | ⟨-, hpool'⟩ | ⟨-, -, hproceeds', hhalts⟩)
    · rw [hcheck] at hcheck'
      cases hcheck'
    · rw [hpool] at hpool'
      cases hpool'
    · obtain rfl := hrests.eq hhalts.rests hproceeds hproceeds'
      exact hhalts
  · exact .halted hcheck hpool hproceeds

/-- The best individual of the last population of a run. -/
theorem best?_finished (h : evolve config evaluator given = .ok run) (source : Twister) :
    (finished run [] [] source).population.best? = some run.last.best := by
  obtain ⟨programs, -, hgen⟩ := exists_programs_of_evolve h run.last (by simp [Run.generations])
  exact Generation.best?_population hgen

/-- If all of the log can be written, then the machine ends when it shows the run, with the calls
for it. -/
theorem ends_iff_of_fits (hpool : config.pool = .ok pool)
    (h : evolve config evaluator given = .ok run)
    (hfits : ∀ gen ∈ run.generations, gen.report.Fits) :
    ∃ source, ∀ calls result, Ends config evaluator given calls result ↔
      calls = run.calls ∧ result = .ok (finished run [] [] source, run.last.best) := by
  have hcheck := Config.check_eq_ok_iff.2 (evolve_eq_ok_iff.1 h).1
  obtain ⟨source, hreaches⟩ := reaches_finished h
  have hfinal : (finished run [] [] source).phase = .success ∨
      (finished run [] [] source).phase = .exhausted := phase_of_evolve h
  have hbest := best?_finished h source
  have hlogged : (finished run [] [] source).IsLogged := by
    simpa [IsLogged, finished, Run.history] using hfits
  refine ⟨source, fun calls result => ?_⟩
  rw [ends_iff_of_rests hcheck hpool (proceeds_of_reaches hreaches hlogged)
    (Halts.finished hfinal hbest).rests]
  constructor
  · intro hhalts
    cases hhalts with
    | failed hstep =>
      rw [step_of_final hfinal] at hstep
      cases hstep
    | unwritable hstep hlog =>
      rw [step_of_final hfinal] at hstep
      cases hstep
      exact absurd hlogged hlog
    | leaderless _ hnone =>
      rw [hbest] at hnone
      cases hnone
    | finished _ hsome =>
      rw [hbest] at hsome
      cases hsome
      exact ⟨rfl, rfl⟩
  · rintro ⟨rfl, rfl⟩
    exact .finished hfinal hbest

/-- If a number of a generation has too many digits, and no number of those before it, then the
machine ends there. The programs of the generation have been evaluated. -/
theorem ends_iff_of_not_fits {before later : List Generation} {gen : Generation}
    (hpool : config.pool = .ok pool) (h : evolve config evaluator given = .ok run)
    (hgenerations : run.generations = before ++ gen :: later)
    (hbefore : ∀ earlier ∈ before, earlier.report.Fits) (hgen : ¬ gen.report.Fits) :
    Ends config evaluator given calls result ↔
      calls = before.flatMap (·.calls) ++ [.evaluate gen.population.programs] ∧
        result = .error (.disruption .digits) := by
  have hcheck := Config.check_eq_ok_iff.2 (evolve_eq_ok_iff.1 h).1
  obtain ⟨population, source, hreaches⟩ := reaches_generation h hgenerations
  obtain ⟨programs, -, hof⟩ := exists_programs_of_evolve h gen (by simp [hgenerations])
  rw [← Generation.programs_population hof] at hof
  have hstep : step config evaluator given
      ⟨.evaluating, gen.number, gen.population.programs, population, before.map (·.report),
        before.flatMap (·.calls), source⟩ =
      .ok ⟨.checkingTermination, gen.number, gen.population.programs, gen.population,
        before.map (·.report) ++ [gen.report], before.flatMap (·.calls) ++ gen.calls, source⟩ :=
    step_evaluating hof
  have hlog : ¬ IsLogged (G := Twister) ⟨.checkingTermination, gen.number,
      gen.population.programs, gen.population, before.map (·.report) ++ [gen.report],
      before.flatMap (·.calls) ++ gen.calls, source⟩ :=
    fun hlogged => hgen (hlogged _ (by simp))
  have hproceeds := proceeds_of_reaches hreaches (by simpa [IsLogged] using hbefore)
  rw [ends_iff_of_rests hcheck hpool hproceeds (Halts.unwritable hstep hlog).rests]
  constructor
  · intro hhalts
    cases hhalts with
    | failed hstep' =>
      rw [hstep] at hstep'
      cases hstep'
    | unwritable => exact ⟨rfl, rfl⟩
    | leaderless hfinal | finished hfinal => simp at hfinal
  · rintro ⟨rfl, rfl⟩
    exact .unwritable hstep hlog

end

end Driver

end StackBreeder
