import StackBreeder.Proofs.Breeding.Palette
import StackBreeder.Proofs.Evolution.Machine
import StackBreeder.Proofs.Machine.Control
import StackBreeder.Proofs.Regression.Solution

/-!
# The vocabulary of an evolution

On cases whose inputs are integers, the run of a program meets (`Regression.Meets`) only symbols
that occur in the program, and a run that halts meets all of these. The programs of an evolution
that draws its first ones have no other items than the palette, whose symbols are names of
instructions; but a block of the palette may hold any symbols. So a symbol without an instruction
can be met by a program that has such a block, and by no other one (`evolve_vocabulary`).
-/

namespace StackBreeder

open Breeding

/-- At the start of a run the code is the program. -/
theorem State.exec_load_bindAll (inputs : List Value) (p : Program) :
    ((State.empty.bindAll inputs).load p).exec = p := by
  rw [bindAll_eq]
  exact List.append_nil p

namespace Regression

/-- The run of a program on a case meets a value if one of its steps takes the value off the
code. -/
def Meets (r : Regression) (p : Program) (c : Case) (v : Value) : Prop :=
  ∃ i < (runProgram .standard r.fuel .empty c.inputs p).2.steps,
    ((step .standard)^[i] ((State.empty.bindAll c.inputs).load p)).exec.head? = some v

variable {r : Regression} {p : Program} {c : Case} {v : Value} {name : String} {n : Nat}

/-- From integers as inputs no symbol is met that does not occur in the program. -/
theorem Meets.mem_parts (h : r.Meets p c (.sym name))
    (hinputs : ∀ v ∈ c.inputs, ∃ n, v = .int n) : .sym name ∈ p.parts := by
  have hexecuted := mem_executed_iff.2 h
  rw [← Dialect.registry_standard] at hexecuted
  rcases Dialect.mem_parts_of_executed hexecuted with hcode | ⟨b, hb, hbound⟩
  · rwa [State.exec_load_bindAll] at hcode
  · rw [State.bindAll_eq] at hb
    obtain ⟨i, hi, rfl⟩ := List.mem_mapIdx.1 hb
    obtain ⟨m, hm⟩ := hinputs c.inputs[i] (List.getElem_mem hi)
    simp only [hm] at hbound
    cases List.mem_singleton.1 hbound

/-- A program of items of a palette that is known meets a symbol without an instruction only inside
a block of the palette. -/
theorem Meets.exists_block {palette : Palette} (h : r.Meets p c (.sym name))
    (hinputs : ∀ v ∈ c.inputs, ∃ n, v = .int n) (hknown : palette.IsKnown .standard)
    (hitems : ∀ v ∈ p, v ∈ palette) (hname : name ∉ Registry.standard.names) :
    ∃ items, .block items ∈ p ∧ .block items ∈ palette ∧ .sym name ∈ Program.parts items := by
  obtain ⟨items, hmem, hin⟩ := hknown.exists_block hitems hname (h.mem_parts hinputs)
  exact ⟨items, hmem, hitems _ hmem, hin⟩

/-- A run that halts meets everything that occurs in its program. -/
theorem meets_of_halted (h : (runProgram .standard r.fuel .empty c.inputs p).2 = .halted n)
    (hv : v ∈ p.parts) : r.Meets p c v := by
  have hdone := exec_of_halted h
  rw [← Dialect.registry_standard] at hdone
  rw [← State.exec_load_bindAll c.inputs p] at hv
  rw [Meets, h]
  exact mem_executed_iff.1 (Dialect.mem_executed_of_mem_parts hdone hv)

end Regression

section
variable {config : Config} {evaluator : Evaluator} {run : Run}

/-- An evolution that draws its first programs makes all programs of items of the palette. -/
theorem mem_palette_of_evolve (h : evolve config evaluator none = .ok run) :
    ∀ gen ∈ run.generations, ∀ p ∈ gen.population.programs, ∀ v ∈ p, v ∈ config.palette := by
  intro gen hmem p hp
  obtain ⟨programs, ⟨-, hitems⟩, hgen⟩ :=
    forall_generation_of_evolve (P := (· ∈ config.palette)) h (fun _ hv => hv) nofun gen hmem
  rw [Generation.programs_population hgen] at hp
  exact hitems p hp

end

/-- Let the terms of an evolution be valid, let it draw its first programs, and let it score them on
cases whose inputs are integers. If the blocks of the palette hold no symbols but the names of
instructions, then no run of a program of any generation, on any case, meets another symbol. In
general, a symbol that is the name of no instruction is met only inside a block of the palette which
is an item of the program, and a run that halts meets all such symbols. -/
theorem evolve_vocabulary (config : Config) (r : Regression) (h : config.check none = .ok ())
    (hinputs : ∀ c ∈ r.cases, ∀ v ∈ c.inputs, ∃ n, v = .int n) :
    ∃ run, evolve config r.evaluator none = .ok run ∧
      ((∀ items, .block items ∈ config.palette →
          ∀ name, .sym name ∈ Program.parts items → name ∈ Registry.standard.names) →
        ∀ gen ∈ run.generations, ∀ p ∈ gen.population.programs, ∀ c ∈ r.cases,
          ∀ name, r.Meets p c (.sym name) → name ∈ Registry.standard.names) ∧
      ∀ gen ∈ run.generations, ∀ p ∈ gen.population.programs, ∀ c ∈ r.cases,
        ∀ name ∉ Registry.standard.names,
          (r.Meets p c (.sym name) → ∃ items,
            .block items ∈ p ∧ .block items ∈ config.palette ∧ .sym name ∈ Program.parts items) ∧
          ∀ n, (runProgram .standard r.fuel .empty c.inputs p).2 = .halted n →
            (r.Meets p c (.sym name) ↔
              ∃ items, .block items ∈ p ∧ .sym name ∈ Program.parts items) := by
  have hvalid := Config.check_eq_ok_iff.1 h
  have hknown := Palette.isKnown_of_check hvalid.check_palette
  obtain ⟨run, hrun⟩ := exists_evolve hvalid r.evaluator
  have hitems := mem_palette_of_evolve hrun
  refine ⟨run, hrun, fun hpalette gen hgen p hp c hc name hmeets => ?_,
    fun gen hgen p hp c hc name hname =>
      ⟨fun hmeets => ?_, fun n hhalted => ⟨fun hmeets => ?_, ?_⟩⟩⟩
  · by_contra hname
    obtain ⟨items, -, hmem, hin⟩ :=
      hmeets.exists_block (hinputs c hc) hknown (hitems gen hgen p hp) hname
    exact hname (hpalette items hmem name hin)
  · exact hmeets.exists_block (hinputs c hc) hknown (hitems gen hgen p hp) hname
  · obtain ⟨items, hmem, -, hin⟩ :=
      hmeets.exists_block (hinputs c hc) hknown (hitems gen hgen p hp) hname
    exact ⟨items, hmem, hin⟩
  · rintro ⟨items, hmem, hin⟩
    refine Regression.meets_of_halted hhalted (Program.mem_parts_iff.2 ⟨_, hmem, ?_⟩)
    rw [Value.parts_block]
    exact .tail _ hin

/-- A palette with a block in a block, all of whose symbols are names of instructions: no other
symbol is ever met. -/
theorem evolve_vocabulary_nested :
    Config.check { palette := [.int 1, .block [.sym "in1", .block [.sym "integer_+"]]] } none =
        .ok () ∧
      ∃ run, evolve { palette := [.int 1, .block [.sym "in1", .block [.sym "integer_+"]]] }
          (Regression.evaluator { cases := [.ofInt 2 7, .ofInt (-2) 3] }) none = .ok run ∧
        ∀ gen ∈ run.generations, ∀ p ∈ gen.population.programs,
          ∀ c ∈ [Case.ofInt 2 7, .ofInt (-2) 3], ∀ name,
            Regression.Meets { cases := [.ofInt 2 7, .ofInt (-2) 3] } p c (.sym name) →
              name ∈ Registry.standard.names := by
  have hcheck : Config.check
      { palette := [.int 1, .block [.sym "in1", .block [.sym "integer_+"]]] } none = .ok () := by
    decide
  obtain ⟨run, hrun, hknown, -⟩ := evolve_vocabulary _
    { cases := [.ofInt 2 7, .ofInt (-2) 3] } hcheck (by simp [Case.ofInt])
  refine ⟨hcheck, run, hrun, hknown fun items hmem name hname => ?_⟩
  obtain rfl : items = [.sym "in1", .block [.sym "integer_+"]] := by simpa using hmem
  have hnames : name = "in1" ∨ name = "integer_+" := by simpa using hname
  rcases hnames with rfl | rfl
  · decide
  · decide

/-- A palette of one block that holds a symbol without an instruction passes the check, and the
program that consists of this block meets the symbol. -/
theorem evolve_vocabulary_unknown :
    Config.check
        { palette := [.block [.sym "nope"]]
          populationSize := 1
          maxGenerations := 0
          maxProgramSize := 1 } none = .ok () ∧
      "nope" ∉ Registry.standard.names ∧
      ∃ run,
        evolve
          { palette := [.block [.sym "nope"]]
            populationSize := 1
            maxGenerations := 0
            maxProgramSize := 1 } (Regression.evaluator { cases := [.ofInt 0 0] }) none = .ok run ∧
        ∃ gen ∈ run.generations, ∃ p ∈ gen.population.programs,
          Regression.Meets { cases := [.ofInt 0 0] } p (.ofInt 0 0) (.sym "nope") := by
  have hcheck : Config.check
      { palette := [.block [.sym "nope"]]
        populationSize := 1
        maxGenerations := 0
        maxProgramSize := 1 } none = .ok () := by decide
  obtain ⟨run, hrun⟩ := exists_evolve (Config.check_eq_ok_iff.1 hcheck)
    (Regression.evaluator { cases := [.ofInt 0 0] })
  have hgenerations := generations_of_singleton hrun rfl rfl rfl rfl
  refine ⟨hcheck, by decide, run, hrun, _, by rw [hgenerations]; exact .head _,
    [.block [.sym "nope"]], ?_, 1, by decide, by decide⟩
  rw [Population.programs_evaluate]
  exact .head _

end StackBreeder
