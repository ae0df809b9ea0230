import Mathlib.Algebra.Order.Ring.Nat
import Mathlib.Algebra.Order.Ring.Unbundled.Rat
import Mathlib.Data.List.MinMax
import Mathlib.Tactic.Ring
import StackBreeder.Proofs.Evolution.History

/-!
# The growth of programs

Programs of the first generation have a limit on their length (`Config.startLength`). From one
generation to the next the longest program at most doubles and gains one item, which an addition at
every place of a program can bring about; so the limit plus one at most doubles. Items are only ever
taken from the palette and from the programs to start from. If the rate of additions is not above
zero, no draw is below it, and neither the limit nor the stock of items grows (`evolve_growth`).
-/

namespace StackBreeder

open Breeding

/-- Draws from the Mersenne Twister are not negative. -/
theorem Twister.unit_nonneg (g : Twister) : 0 ≤ (RandomSource.unit g).1 :=
  Rat.mkRat_nonneg (Int.natCast_nonneg _) _

/-- How long programs of the first generation can be: as long as the longest of the given ones, or
as the limit for random ones allows. -/
def Config.startLength (config : Config) : Option (List Program) → Nat
  | some programs => (programs.map List.length).foldr max 0
  | none => config.maxProgramSize.toNat

/-- A program may come from the palette and the given programs: its items do. -/
def Config.Supplies (config : Config) (given : Option (List Program)) (p : Program) : Prop :=
  ∀ v ∈ p, v ∈ config.palette ∨ ∃ programs ∈ given, ∃ q ∈ programs, v ∈ q

section
variable {config : Config} {evaluator : Evaluator} {given : Option (List Program)}
  {programs : List Program} {p : Program} {run : Run}

theorem Config.length_le_startLength (hp : p ∈ programs) :
    p.length ≤ config.startLength (some programs) :=
  List.le_max_of_le (List.mem_map_of_mem hp) (Nat.le_refl _)

/-- Every program of an evolution has what all programs of the first generation can have and what
breeding hands on. -/
theorem forall_program_of_evolve {R : Nat → Program → Prop}
    (h : evolve config evaluator given = .ok run)
    (hgiven : ∀ programs ∈ given, ∀ p ∈ programs, R 0 p)
    (hrandom : given = none → ∀ p : Program, (p ≠ [] ∧ p.length ≤ config.maxProgramSize) →
      (∀ v ∈ p, v ∈ config.palette) → R 0 p)
    (hbreed : ∀ number (population : Population), 0 < population.size →
      (∀ i ∈ population, R number i.program) →
      Yields (breed population config.tournamentSize config.palette config.rates :
        Breeding Twister Program) (R (number + 1))) :
    ∀ gen ∈ run.generations, ∀ p ∈ gen.population.programs, R gen.number p := by
  intro gen hmem
  obtain ⟨hvalid, _, _, _, hinitial, hadvance⟩ := evolve_eq_ok_iff.1 h
  obtain ⟨programs, ⟨-, hprograms⟩, hgen⟩ := (offspring_hereditary_of hvalid evaluator
    hbreed).forall_generation hadvance
    ((initial_yields_of hvalid hgiven hrandom).of_run hinitial) gen hmem
  rwa [Generation.programs_population hgen]

/-- The length of programs, plus one, at most doubles with each generation, and their items come
from the palette and from the given programs. -/
theorem length_lt_of_evolve (h : evolve config evaluator given = .ok run) :
    ∀ gen ∈ run.generations, ∀ p ∈ gen.population.programs,
      p.length < 2 ^ gen.number * (config.startLength given + 1) ∧ config.Supplies given p := by
  have hvalid := (evolve_eq_ok_iff.1 h).1
  refine forall_program_of_evolve (R := fun number p =>
    p.length < 2 ^ number * (config.startLength given + 1) ∧ config.Supplies given p) h
    (fun programs hprograms p hp => ⟨?_, fun v hv => ?_⟩) (fun hnone p hsize hitems => ⟨?_, ?_⟩)
    fun number population hsize hpopulation => ?_
  · obtain rfl : given = some programs := hprograms
    have hlength : p.length ≤ config.startLength (some programs) := Config.length_le_startLength hp
    omega
  · exact .inr ⟨programs, hprograms, p, hp, hv⟩
  · subst hnone
    simp only [Config.startLength]
    omega
  · exact fun v hv => .inl (hitems v hv)
  · refine (breed_yields (Palette.ne_nil_of_check hvalid.check_palette) hsize
      hvalid.one_le_tournamentSize config.rates).mono fun child ⟨⟨i, hi, hlength⟩, hitems⟩ => ?_
    refine ⟨?_, fun v hv => ?_⟩
    · have hparent := (hpopulation i hi).1
      calc child.length < 2 * (i.program.length + 1) := by omega
        _ ≤ 2 * (2 ^ number * (config.startLength given + 1)) := Nat.mul_le_mul_left 2 hparent
        _ = 2 ^ (number + 1) * (config.startLength given + 1) := by ring
    · rcases hitems v hv with hv | ⟨j, hj, hv⟩
      · exact .inl hv
      · exact (hpopulation j hj).2 v hv

/-- Without additions no program is longer than those of the first generation can be, and of given
programs nothing but their items is left. -/
theorem length_le_of_evolve (h : evolve config evaluator given = .ok run)
    (hrate : config.rates.addition ≤ 0) :
    ∀ gen ∈ run.generations, ∀ p ∈ gen.population.programs,
      p.length ≤ config.startLength given ∧
        ∀ programs ∈ given, ∀ v ∈ p, ∃ q ∈ programs, v ∈ q := by
  have hvalid := (evolve_eq_ok_iff.1 h).1
  refine forall_program_of_evolve (R := fun _ p => p.length ≤ config.startLength given ∧
    ∀ programs ∈ given, ∀ v ∈ p, ∃ q ∈ programs, v ∈ q) h
    (fun programs hprograms p hp => ?_) (fun hnone p hsize _ => ?_)
    fun number population hsize hpopulation => ?_
  · obtain rfl : given = some programs := hprograms
    refine ⟨Config.length_le_startLength hp, ?_⟩
    rintro _ ⟨⟩ v hv
    exact ⟨p, hp, hv⟩
  · subst hnone
    refine ⟨?_, nofun⟩
    simp only [Config.startLength]
    omega
  · have hdraw (g : Twister) : config.rates.addition ≤ (RandomSource.unit g).1 :=
      le_trans hrate g.unit_nonneg
    refine (breed_yields_of_rate_le hsize hvalid.one_le_tournamentSize hdraw).mono
      fun child ⟨⟨i, hi, hlength⟩, hitems⟩ => ⟨?_, fun programs hprograms v hv => ?_⟩
    · exact Nat.le_trans hlength (hpopulation i hi).1
    · obtain ⟨j, hj, hv⟩ := hitems v hv
      exact (hpopulation j hj).2 programs hprograms v hv

end

/-- Let `L` be the limit on the length of programs of the first generation. On valid terms, whatever
the evaluator and the seed, the programs evaluated in the generation `number` have no more than
`2 ^ number * (L + 1) - 1` items, and each of these is one of the palette or of a given program. If
the rate of additions is not above zero, no program has more than `L` items, and if programs are
given, all items are theirs. -/
theorem evolve_growth (config : Config) (evaluator : Evaluator) (given : Option (List Program))
    (h : config.check given = .ok ()) :
    ∃ run, evolve config evaluator given = .ok run ∧
      ∀ number gen, run.generations[number]? = some gen →
        gen.population = .evaluate evaluator gen.population.programs ∧
        ∀ p ∈ gen.population.programs,
          p.length ≤ 2 ^ number * (config.startLength given + 1) - 1 ∧
          (∀ v ∈ p, v ∈ config.palette ∨ ∃ programs ∈ given, ∃ q ∈ programs, v ∈ q) ∧
          (config.rates.addition ≤ 0 →
            p.length ≤ config.startLength given ∧
            ∀ programs ∈ given, ∀ v ∈ p, ∃ q ∈ programs, v ∈ q) := by
  obtain ⟨run, hrun⟩ := exists_evolve (Config.check_eq_ok_iff.1 h) evaluator
  obtain ⟨-, _, _, _, -, hadvance⟩ := evolve_eq_ok_iff.1 hrun
  refine ⟨run, hrun, fun number gen hgen => ?_⟩
  have hmem := List.mem_of_getElem? hgen
  obtain rfl := hadvance.number_eq hgen
  obtain ⟨programs, -, hof⟩ := exists_programs_of_evolve hrun gen hmem
  obtain ⟨-, hpopulation, -⟩ := Generation.of?_eq_some_iff.1 hof
  refine ⟨by rw [hpopulation, Population.programs_evaluate], fun p hp => ?_⟩
  obtain ⟨hlength, hitems⟩ := length_lt_of_evolve hrun gen hmem p hp
  exact ⟨Nat.le_sub_one_of_lt hlength, hitems,
    fun hrate => length_le_of_evolve hrun hrate gen hmem p hp⟩

/-- Two given programs, one without items and one with a symbol that no instruction answers to, and
no additions: what comes after them has at most two items, and only those of the second one. -/
theorem evolve_growth_two :
    Config.check { populationSize := 2, rates := { addition := 0 } }
        (some [[], [.int 5, .sym "nope"]]) = .ok () ∧
      ∃ run, evolve { populationSize := 2, rates := { addition := 0 } }
          (fun p => .ofErrors [1, p.length]) (some [[], [.int 5, .sym "nope"]]) = .ok run ∧
        ∀ number gen, run.generations[number]? = some gen → ∀ p ∈ gen.population.programs,
          p.length ≤ 2 ^ number * 3 - 1 ∧ p.length ≤ 2 ∧ ∀ v ∈ p, v = .int 5 ∨ v = .sym "nope" := by
  have hcheck : Config.check { populationSize := 2, rates := { addition := 0 } }
      (some [[], [.int 5, .sym "nope"]]) = .ok () := by decide
  obtain ⟨run, hrun, hgrowth⟩ := evolve_growth _ (fun p => .ofErrors [1, p.length]) _ hcheck
  refine ⟨hcheck, run, hrun, fun number gen hgen p hp => ?_⟩
  obtain ⟨hlength, -, hrate⟩ := (hgrowth number gen hgen).2 p hp
  obtain ⟨hle, hitems⟩ := hrate (le_refl 0)
  refine ⟨hlength, hle, fun v hv => ?_⟩
  simpa using hitems _ rfl v hv

end StackBreeder
