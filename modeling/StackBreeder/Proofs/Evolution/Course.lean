import StackBreeder.Evolution.Run
import StackBreeder.Proofs.Breeding.Fittest
import StackBreeder.Proofs.Breeding.Inheritance

/-!
# The course of an evolution

`Advances` says how an evolution goes on from the programs of one generation: it ends with success
if one of them has no error, it ends exhausted if no generation is left, and otherwise it goes on
from the programs that are bred next. This is what `advance` computes (`advance_run_iff`), with the
bounds of the evolution and the breeding as parameters.

What the programs of each generation hand on to the next one (`Hereditary`) is true of all
generations, and an evolution in which some such property keeps populations from being empty always
comes to an end (`Hereditary.exists_advances`). On valid terms breeding is of this kind
(`offspring_hereditary`), so that an evolution never fails (`exists_evolve`).
-/

namespace StackBreeder

open Breeding

/-! ## Generations -/

theorem Generation.of?_eq_some_iff {number : Nat} {population : Population} {gen : Generation} :
    Generation.of? number population = some gen ↔
      gen.number = number ∧ gen.population = population ∧ population.best? = some gen.best := by
  obtain ⟨number', population', best⟩ := gen
  simp only [of?, Option.map_eq_some_iff, Generation.mk.injEq]
  constructor
  · rintro ⟨best', h, rfl, rfl, rfl⟩
    exact ⟨rfl, rfl, h⟩
  · rintro ⟨rfl, rfl, h⟩
    exact ⟨best, h, rfl, rfl, rfl⟩

/-- A generation has the best individual of its population. -/
theorem Generation.best?_population {number : Nat} {population : Population} {gen : Generation}
    (hgen : Generation.of? number population = some gen) :
    gen.population.best? = some gen.best := by
  obtain ⟨-, hpopulation, hbest⟩ := of?_eq_some_iff.1 hgen
  rwa [hpopulation]

theorem Population.toList_evaluate (evaluator : Evaluator) (programs : List Program) :
    (evaluate evaluator programs).toList = programs.map (Individual.ofProgram evaluator) := rfl

/-- Every member of an evaluated population is one of the programs, evaluated. -/
theorem Population.exists_of_mem_evaluate {evaluator : Evaluator} {programs : List Program}
    {i : Individual} (h : i ∈ evaluate evaluator programs) :
    ∃ p ∈ programs, Individual.ofProgram evaluator p = i := by
  simpa [evaluate] using h

/-- Programs make up a generation, unless there are none. -/
theorem Generation.exists_of? (evaluator : Evaluator) (number : Nat) {programs : List Program}
    (h : programs ≠ []) :
    ∃ gen, Generation.of? number (.evaluate evaluator programs) = some gen := by
  have hne : (Population.evaluate evaluator programs).toList ≠ [] := by
    simpa [Population.toList_evaluate] using h
  obtain ⟨best, hbest⟩ := Population.exists_best? hne
  exact ⟨⟨number, _, best⟩, Generation.of?_eq_some_iff.2 ⟨rfl, rfl, hbest⟩⟩

/-- The best individual of a generation is one of its programs, evaluated. -/
theorem Generation.exists_best_of_of? {evaluator : Evaluator} {number : Nat}
    {programs : List Program} {gen : Generation}
    (hgen : Generation.of? number (.evaluate evaluator programs) = some gen) :
    ∃ p ∈ programs, Individual.ofProgram evaluator p = gen.best := by
  obtain ⟨-, -, hbest⟩ := of?_eq_some_iff.1 hgen
  simpa [Population.toList_evaluate] using (minOn?_eq_some_iff.1 hbest).mem

/-! ## From one generation to the end -/

section
variable {G : Type}

/-- An evolution goes on from the programs of the generation `number`, for at most `left` more
generations, each bred by `next`, and draws from a source what leads to another one. -/
inductive Advances (evaluator : Evaluator) (next : Population → Breeding G (List Program)) :
    (left number : Nat) → List Program → G → Run → G → Prop
  | success {left number : Nat} {programs : List Program} {g : G} {gen : Generation}
      (hgen : Generation.of? number (.evaluate evaluator programs) = some gen)
      (hsolved : gen.population.isSolved = true) :
      Advances evaluator next left number programs g ⟨.success, [], gen⟩ g
  | exhausted {number : Nat} {programs : List Program} {g : G} {gen : Generation}
      (hgen : Generation.of? number (.evaluate evaluator programs) = some gen)
      (hunsolved : gen.population.isSolved = false) :
      Advances evaluator next 0 number programs g ⟨.exhausted, [], gen⟩ g
  | next {left number : Nat} {programs offspring : List Program} {g g' g'' : G} {gen : Generation}
      {run : Run} (hgen : Generation.of? number (.evaluate evaluator programs) = some gen)
      (hunsolved : gen.population.isSolved = false)
      (hnext : (next gen.population).run g = (.ok offspring, g'))
      (h : Advances evaluator next left (number + 1) offspring g' run g'') :
      Advances evaluator next (left + 1) number programs g (run.after gen) g''

variable {evaluator : Evaluator} {next : Population → Breeding G (List Program)}
  {left number : Nat} {programs : List Program} {g g' : G} {run : Run} {gen : Generation}

/-- What `advance` does with the programs of a generation. -/
theorem advance_of_generation [RandomSource G] {config : Config}
    (hgen : Generation.of? number (.evaluate evaluator programs) = some gen) :
    (advance config evaluator left number programs : Breeding G Run) =
      if gen.population.isSolved then pure ⟨.success, [], gen⟩
      else
        match left with
        | 0 => pure ⟨.exhausted, [], gen⟩
        | left + 1 =>
          offspring config gen.population >>= fun programs =>
            advance config evaluator left (number + 1) programs >>= fun run =>
              pure (run.after gen) := by
  obtain ⟨-, hpopulation, -⟩ := Generation.of?_eq_some_iff.1 hgen
  rw [advance.eq_def]
  cases left with
  | zero => simp only [hgen, hpopulation]
  | succ => simp only [hgen, hpopulation]

/-- `advance` succeeds only with programs that make up a generation. -/
theorem exists_of?_of_advance [RandomSource G] {config : Config}
    (h : (advance config evaluator left number programs).run g = (.ok run, g')) :
    ∃ gen, Generation.of? number (.evaluate evaluator programs) = some gen := by
  rw [advance.eq_def] at h
  dsimp only at h
  split at h
  · cases h
  · next gen hgen => exact ⟨gen, hgen⟩

/-- `advance` computes the course of an evolution. -/
theorem advance_run_iff [RandomSource G] {config : Config} :
    (advance config evaluator left number programs).run g = (.ok run, g') ↔
      Advances evaluator (offspring config) left number programs g run g' := by
  constructor
  · intro h
    induction left generalizing number programs g run with
    | zero =>
      obtain ⟨gen, hgen⟩ := exists_of?_of_advance h
      rw [advance_of_generation hgen] at h
      split at h
      · next hsolved => cases h; exact .success hgen hsolved
      · next hunsolved => cases h; exact .exhausted hgen (by simpa using hunsolved)
    | succ left ih =>
      obtain ⟨gen, hgen⟩ := exists_of?_of_advance h
      rw [advance_of_generation hgen] at h
      split at h
      · next hsolved => cases h; exact .success hgen hsolved
      · next hunsolved =>
        obtain ⟨programs', g₁, hnext, h⟩ := exists_of_run_bind h
        obtain ⟨rest, g₂, hrest, h⟩ := exists_of_run_bind h
        cases h
        exact .next hgen (by simpa using hunsolved) hnext (ih hrest)
  · intro h
    induction h with
    | success hgen hsolved =>
      rw [advance_of_generation hgen, if_pos hsolved]
      rfl
    | exhausted hgen hunsolved =>
      rw [advance_of_generation hgen, if_neg (by simp [hunsolved])]
      rfl
    | next hgen hunsolved hnext _ ih =>
      rw [advance_of_generation hgen, if_neg (by simp [hunsolved]), run_bind_of_ok hnext,
        run_bind_of_ok ih]
      rfl

namespace Advances

/-- The programs that an evolution goes on from make up a generation. -/
theorem exists_of? (h : Advances evaluator next left number programs g run g') :
    ∃ gen, Generation.of? number (.evaluate evaluator programs) = some gen := by
  cases h with
  | success hgen | exhausted hgen | next hgen => exact ⟨_, hgen⟩

/-- The programs that an evolution goes on from are those of its next generation. -/
theorem generations_eq_cons (h : Advances evaluator next left number programs g run g')
    (hgen : Generation.of? number (.evaluate evaluator programs) = some gen) :
    ∃ later, run.generations = gen :: later := by
  cases h with
  | success hgen' | exhausted hgen' =>
    obtain rfl := Option.some.inj (hgen.symm.trans hgen')
    exact ⟨[], rfl⟩
  | next hgen' =>
    obtain rfl := Option.some.inj (hgen.symm.trans hgen')
    exact ⟨_, rfl⟩

/-- If no generation may follow, there is only one. -/
theorem generations_eq_singleton (h : Advances evaluator next 0 number programs g run g')
    (hgen : Generation.of? number (.evaluate evaluator programs) = some gen) :
    run.generations = [gen] := by
  cases h with
  | success hgen' | exhausted hgen' =>
    obtain rfl := Option.some.inj (hgen.symm.trans hgen')
    rfl

/-- An evolution from programs of which one is without errors ends at once. -/
theorem eq_of_isSolved (h : Advances evaluator next left number programs g run g')
    (hgen : Generation.of? number (.evaluate evaluator programs) = some gen)
    (hsolved : gen.population.isSolved = true) : run = ⟨.success, [], gen⟩ := by
  cases h with
  | success hgen' =>
    obtain rfl := Option.some.inj (hgen.symm.trans hgen')
    rfl
  | exhausted hgen' hunsolved | next hgen' hunsolved =>
    obtain rfl := Option.some.inj (hgen.symm.trans hgen')
    rw [hsolved] at hunsolved
    cases hunsolved

/-- Generations are numbered without a gap. -/
theorem map_number (h : Advances evaluator next left number programs g run g') :
    run.generations.map (·.number) = List.range' number (run.earlier.length + 1) := by
  induction h with
  | success hgen | exhausted hgen =>
    obtain ⟨hnumber, -, -⟩ := Generation.of?_eq_some_iff.1 hgen
    simp [Run.generations, hnumber]
  | next hgen _ _ _ ih =>
    obtain ⟨hnumber, -, -⟩ := Generation.of?_eq_some_iff.1 hgen
    rw [Run.after, List.length_cons, List.range'_succ, ← ih, ← hnumber]
    rfl

/-- The number of the last generation counts those before it. -/
theorem last_number (h : Advances evaluator next left number programs g run g') :
    run.last.number = number + run.earlier.length := by
  have hnumbers := congrArg List.getLast? h.map_number
  simpa [Run.generations, List.getLast?_range'] using hnumbers

/-- An evolution ends with success in a generation that has an individual without errors, and
exhausted in one that has none, when no generation is left. -/
theorem phase_cases (h : Advances evaluator next left number programs g run g') :
    (run.phase = .success ∧ run.last.population.isSolved = true ∧ run.earlier.length ≤ left) ∨
      (run.phase = .exhausted ∧ run.last.population.isSolved = false ∧
        run.earlier.length = left) := by
  induction h with
  | success _ hsolved => exact .inl ⟨rfl, hsolved, Nat.zero_le _⟩
  | exhausted _ hunsolved => exact .inr ⟨rfl, hunsolved, rfl⟩
  | next _ _ _ _ ih =>
    exact ih.imp (fun ⟨hphase, hsolved, hle⟩ => ⟨hphase, hsolved, Nat.succ_le_succ hle⟩)
      fun ⟨hphase, hunsolved, heq⟩ => ⟨hphase, hunsolved, congrArg (· + 1) heq⟩

end Advances

/-! ## What is handed on -/

/-- The programs with the property `Q` are not none, and when they are bred the property is handed
on to the next generation. -/
structure Hereditary (evaluator : Evaluator) (next : Population → Breeding G (List Program))
    (Q : Nat → List Program → Prop) : Prop where
  ne_nil {number : Nat} {programs : List Program} : Q number programs → programs ≠ []
  yields {number : Nat} {programs : List Program} :
    Q number programs → Yields (next (.evaluate evaluator programs)) (Q (number + 1))

namespace Hereditary

variable {Q : Nat → List Program → Prop}

/-- From programs with a hereditary property an evolution comes to an end. -/
theorem exists_advances (hQ : Hereditary evaluator next Q) (hstart : Q number programs)
    (left : Nat) (g : G) : ∃ run g', Advances evaluator next left number programs g run g' := by
  induction left generalizing number programs g with
  | zero =>
    obtain ⟨gen, hgen⟩ := Generation.exists_of? evaluator number (hQ.ne_nil hstart)
    cases hsolved : gen.population.isSolved with
    | true => exact ⟨_, _, .success hgen hsolved⟩
    | false => exact ⟨_, _, .exhausted hgen hsolved⟩
  | succ left ih =>
    obtain ⟨gen, hgen⟩ := Generation.exists_of? evaluator number (hQ.ne_nil hstart)
    cases hsolved : gen.population.isSolved with
    | true => exact ⟨_, _, .success hgen hsolved⟩
    | false =>
      obtain ⟨-, hpopulation, -⟩ := Generation.of?_eq_some_iff.1 hgen
      obtain ⟨programs', g', hnext, hQ'⟩ := hQ.yields hstart g
      obtain ⟨run, g'', h⟩ := ih hQ' g'
      exact ⟨_, _, .next hgen hsolved (hpopulation ▸ hnext) h⟩

/-- Every generation consists of programs with the property, evaluated. -/
theorem forall_generation (hQ : Hereditary evaluator next Q)
    (h : Advances evaluator next left number programs g run g') (hstart : Q number programs) :
    ∀ gen ∈ run.generations, ∃ programs, Q gen.number programs ∧
      Generation.of? gen.number (.evaluate evaluator programs) = some gen := by
  induction h with
  | success hgen | exhausted hgen =>
    obtain ⟨rfl, -, -⟩ := Generation.of?_eq_some_iff.1 hgen
    exact List.forall_mem_singleton.2 ⟨_, hstart, hgen⟩
  | next hgen _ hnext _ ih =>
    obtain ⟨rfl, hpopulation, -⟩ := Generation.of?_eq_some_iff.1 hgen
    rw [hpopulation] at hnext
    exact List.forall_mem_cons.2
      ⟨⟨_, hstart, hgen⟩, ih ((hQ.yields hstart).of_run hnext)⟩

end Hereditary

end

end StackBreeder
