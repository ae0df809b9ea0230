import Mathlib.Logic.Relation
import StackBreeder.Proofs.Evolution.Terms

/-!
# The machine of an evolution

An evolution can be told as a machine that goes from phase to phase. It keeps the programs, the
evaluated population and the number of the current generation, the reports so far, and a journal of
its calls: which programs it had evaluated, and what it reported, in the order of the calls. One
step (`Driver.step`) does what its phase says and chooses the next phase.

The machine and `evolve` are the same: from its start the machine reaches a finished state that
shows the run of `evolve` (`reaches_finished`), and its journal has for each generation one call of
the evaluator and then one report (`Run.calls`).
-/

namespace StackBreeder

open Breeding

/-- What an evolution calls for as it goes on. -/
inductive Call where
  /-- The evaluator is applied to each of these programs, in this order. -/
  | evaluate (programs : List Program)
  /-- A generation is reported. -/
  | report (r : Report)

/-- The programs of a population. -/
def Population.programs (population : Population) : List Program :=
  population.toList.map (·.program)

@[simp] theorem Population.programs_evaluate (evaluator : Evaluator) (programs : List Program) :
    (evaluate evaluator programs).programs = programs := by
  simp [Population.programs, evaluate, Individual.ofProgram, Function.comp_def]

/-- The programs of a generation are those that it was made of. -/
theorem Generation.programs_population {evaluator : Evaluator} {number : Nat}
    {programs : List Program} {gen : Generation}
    (hgen : Generation.of? number (.evaluate evaluator programs) = some gen) :
    gen.population.programs = programs := by
  obtain ⟨-, hpopulation, -⟩ := of?_eq_some_iff.1 hgen
  rw [hpopulation, Population.programs_evaluate]

/-- The calls for one generation. -/
def Generation.calls (gen : Generation) : List Call :=
  [.evaluate gen.population.programs, .report gen.report]

namespace Run

/-- The reports of all generations. -/
def history (run : Run) : List Report := run.generations.map (·.report)

/-- The calls for all generations. -/
def calls (run : Run) : List Call := run.generations.flatMap (·.calls)

end Run

/-- The state of the machine. -/
structure Driver (G : Type) where
  phase : Phase := .initializing
  /-- The number of the current generation. -/
  number : Nat := 0
  programs : List Program := []
  population : Population := #[]
  history : List Report := []
  /-- The journal of calls, first call first. -/
  calls : List Call := []
  /-- Where draws come from. -/
  source : G

namespace Driver

variable {G : Type} [RandomSource G] {config : Config} {evaluator : Evaluator}
  {given : Option (List Program)}

/-- The machine before its first step. -/
def start (g : G) : Driver G := { source := g }

/-- One step of the machine. In a final phase nothing changes any more. -/
def step (config : Config) (evaluator : Evaluator) (given : Option (List Program))
    (d : Driver G) : Except BreedingError (Driver G) :=
  match d.phase with
  | .initializing =>
    match (initial config given).run d.source with
    | (.ok programs, source) =>
      .ok { d with
        phase := .evaluating
        programs := programs
        population := (programs.map Individual.unevaluated).toArray
        source := source }
    | (.error e, _) => .error e
  | .evaluating =>
    let population := Population.evaluate evaluator d.programs
    match Generation.of? d.number population with
    | some gen =>
      .ok { d with
        phase := .checkingTermination
        population := population
        history := d.history ++ [gen.report]
        calls := d.calls ++ [.evaluate d.programs, .report gen.report] }
    | none => .error .emptyPopulation
  | .checkingTermination =>
    if d.population.isSolved then .ok { d with phase := .success }
    else if config.maxGenerations ≤ d.number then .ok { d with phase := .exhausted }
    else .ok { d with phase := .reproducing }
  | .reproducing =>
    match (offspring config d.population).run d.source with
    | (.ok programs, source) =>
      .ok { d with
        phase := .evaluating
        number := d.number + 1
        programs := programs
        source := source }
    | (.error e, _) => .error e
  | .success | .exhausted => .ok d

/-- The machine gets from one state to another in some number of steps. -/
def Reaches (config : Config) (evaluator : Evaluator) (given : Option (List Program)) :
    Driver G → Driver G → Prop :=
  Relation.ReflTransGen fun d d' => d.step config evaluator given = .ok d'

/-- The state in which the machine shows a run, after the given reports and calls. -/
def finished (run : Run) (history : List Report) (calls : List Call) (source : G) : Driver G where
  phase := run.phase
  number := run.last.number
  programs := run.last.population.programs
  population := run.last.population
  history := history ++ run.history
  calls := calls ++ run.calls
  source := source

section
variable {left number : Nat} {programs : List Program} {population : Population} {g g' : G}
  {gen : Generation} {history : List Report} {calls : List Call} {run : Run}

theorem step_start (hinitial : (initial config given).run g = (.ok programs, g')) :
    step config evaluator given (start g) =
      .ok ⟨.evaluating, 0, programs, (programs.map Individual.unevaluated).toArray, [], [],
        g'⟩ := by
  simp only [step, start, hinitial]

/-- Evaluating a generation reports it. -/
theorem step_evaluating (hgen : Generation.of? number (.evaluate evaluator programs) = some gen) :
    step config evaluator given
        ⟨.evaluating, number, programs, population, history, calls, g⟩ =
      .ok ⟨.checkingTermination, gen.number, gen.population.programs, gen.population,
        history ++ [gen.report], calls ++ gen.calls, g⟩ := by
  obtain ⟨hnumber, hpopulation, -⟩ := Generation.of?_eq_some_iff.1 hgen
  simp only [step, hgen, Generation.calls, hnumber, hpopulation, Population.programs_evaluate]

theorem step_success (hsolved : population.isSolved = true) :
    step config evaluator given
        ⟨.checkingTermination, number, programs, population, history, calls, g⟩ =
      .ok ⟨.success, number, programs, population, history, calls, g⟩ :=
  if_pos hsolved

theorem step_exhausted (hunsolved : population.isSolved = false)
    (hlast : config.maxGenerations ≤ number) :
    step config evaluator given
        ⟨.checkingTermination, number, programs, population, history, calls, g⟩ =
      .ok ⟨.exhausted, number, programs, population, history, calls, g⟩ := by
  simp [step, hunsolved, hlast]

theorem step_reproducing (hunsolved : population.isSolved = false)
    (hlast : ¬ config.maxGenerations ≤ number) :
    step config evaluator given
        ⟨.checkingTermination, number, programs, population, history, calls, g⟩ =
      .ok ⟨.reproducing, number, programs, population, history, calls, g⟩ := by
  simp [step, hunsolved, hlast]

theorem step_offspring {programs' : List Program}
    (hnext : (offspring config population).run g = (.ok programs', g')) :
    step config evaluator given
        ⟨.reproducing, number, programs, population, history, calls, g⟩ =
      .ok ⟨.evaluating, number + 1, programs', population, history, calls, g'⟩ := by
  simp only [step, hnext]

/-- From the programs of a generation the machine comes to each generation of the course of the
evolution. By then it has recorded those before. -/
theorem reaches_of_advances {before later : List Generation}
    (h : Advances evaluator (offspring config) left number programs g run g')
    (hleft : config.maxGenerations = (number + left : Nat))
    (hgenerations : run.generations = before ++ gen :: later) :
    ∃ population' source, Reaches config evaluator given
      ⟨.evaluating, number, programs, population, history, calls, g⟩
      ⟨.evaluating, gen.number, gen.population.programs, population',
        history ++ before.map (·.report), calls ++ before.flatMap (·.calls), source⟩ := by
  induction before generalizing left number programs population history calls g run with
  | nil =>
    obtain ⟨first, hgen⟩ := h.exists_of?
    obtain ⟨_, hcons⟩ := h.generations_eq_cons hgen
    obtain ⟨rfl, -⟩ := List.cons.inj (hgenerations.symm.trans hcons)
    obtain ⟨rfl, -, -⟩ := Generation.of?_eq_some_iff.1 hgen
    rw [Generation.programs_population hgen]
    refine ⟨population, g, ?_⟩
    simp only [List.map_nil, List.flatMap_nil, List.append_nil]
    exact .refl
  | cons first before ih =>
    cases h with
    | success | exhausted =>
      -- There is no generation before the only one.
      have hlength := congrArg List.length hgenerations
      simp [Run.generations] at hlength
    | @next left _ _ programs' _ g₁ _ gen₁ rest hgen hunsolved hnext hadvance =>
      obtain ⟨rfl, hrest⟩ := List.cons.inj hgenerations
      obtain ⟨hnumber, -, -⟩ := Generation.of?_eq_some_iff.1 hgen
      -- Three steps lead to the next generation; what they have recorded stands before the rest.
      obtain ⟨population', source, hreaches⟩ : ∃ population' source, Reaches config evaluator given
          ⟨.evaluating, number + 1, programs', gen₁.population, history ++ [gen₁.report],
            calls ++ gen₁.calls, g₁⟩
          ⟨.evaluating, gen.number, gen.population.programs, population',
            history ++ [gen₁.report] ++ before.map (·.report),
            calls ++ gen₁.calls ++ before.flatMap (·.calls), source⟩ :=
        ih hadvance (by omega) hrest
      refine ⟨population', source, .head (step_evaluating hgen) (.head
        (step_reproducing hunsolved (by omega)) (.head (step_offspring hnext) ?_))⟩
      simp only [hnumber, List.map_cons, List.flatMap_cons, List.append_assoc, List.cons_append,
        List.nil_append] at hreaches ⊢
      exact hreaches

end

section
variable {run : Run} {before later : List Generation} {gen : Generation}

/-- The machine comes to each generation of the run of the evolution. -/
theorem reaches_generation (h : evolve config evaluator given = .ok run)
    (hgenerations : run.generations = before ++ gen :: later) :
    ∃ population, ∃ source : Twister, Reaches config evaluator given
      (start (Twister.ofSeed config.seed))
      ⟨.evaluating, gen.number, gen.population.programs, population, before.map (·.report),
        before.flatMap (·.calls), source⟩ := by
  obtain ⟨hvalid, programs, g, g', hinitial, hadvance⟩ := evolve_eq_ok_iff.1 h
  have hnonneg := hvalid.maxGenerations_nonneg
  obtain ⟨population, source, hreaches⟩ := reaches_of_advances hadvance (by omega) hgenerations
  exact ⟨population, source, .head (step_start hinitial) hreaches⟩

/-- The machine ends in a state that shows the run of the evolution. -/
theorem reaches_finished (h : evolve config evaluator given = .ok run) :
    ∃ source : Twister, Reaches config evaluator given (start (Twister.ofSeed config.seed))
      (finished run [] [] source) := by
  obtain ⟨hvalid, _, _, _, -, hadvance⟩ := evolve_eq_ok_iff.1 h
  have hnonneg := hvalid.maxGenerations_nonneg
  obtain ⟨programs, -, hgen⟩ := exists_programs_of_evolve h run.last (by simp [Run.generations])
  obtain ⟨population, source, hreaches⟩ :=
    reaches_generation h (show run.generations = run.earlier ++ run.last :: [] from rfl)
  rw [← Generation.programs_population hgen] at hgen
  refine ⟨source, (hreaches.tail (step_evaluating hgen)).tail ?_⟩
  have hlast := hadvance.last_number
  simp only [finished, Run.history, Run.calls, Run.generations, List.map_append,
    List.flatMap_append, List.nil_append, List.map_cons, List.map_nil, List.flatMap_cons,
    List.flatMap_nil, List.append_nil]
  rcases hadvance.phase_cases with ⟨hphase, hsolved, -⟩ | ⟨hphase, hunsolved, hleft⟩
  · rw [hphase]
    exact step_success hsolved
  · rw [hphase]
    exact step_exhausted hunsolved (by omega)

end

end Driver

end StackBreeder
