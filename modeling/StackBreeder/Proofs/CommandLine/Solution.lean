import StackBreeder.Proofs.CommandLine.Session
import StackBreeder.Proofs.Program.RoundTrip
import StackBreeder.Proofs.Regression.Solution

/-!
# Printed solutions

A session that prints a solution has found one (`session_solution`). The text after `Solution: `
reads back as the best program of the evolution: the symbols of the palette were read or are built
in, so their names are readable, and programs of the evolution have no other items than those of the
palette. And this program is right on every input of the problem: an evolution that ends with
success has an individual without errors, and with no total below zero this makes the best one an
individual without errors.
-/

namespace StackBreeder

/-- A program with readable symbols is read from its written form. -/
theorem read_print {p : Program} (h : ∀ name, .sym name ∈ p.parts → Readable name) :
    Program.read p.print = .ok p := by
  rw [Program.read, Program.print, String.toList_ofList]
  exact (writes_chars h).ofChars

/-- If totals are never below zero, an evolution that ends with success has a best individual whose
total is zero. -/
theorem best_total_eq_zero {config : Config} {evaluator : Evaluator}
    {given : Option (List Program)} {run : Run} (h : evolve config evaluator given = .ok run)
    (hnonneg : ∀ p, 0 ≤ (evaluator p).total) (hphase : run.phase = .success) :
    (evaluator run.last.best.program).total = 0 := by
  obtain ⟨-, _, _, _, -, hadvance⟩ := evolve_eq_ok_iff.1 h
  obtain ⟨programs, -, hgen⟩ := exists_programs_of_evolve h run.last (by simp [Run.generations])
  have hmin := minOn?_eq_some_iff.1 (Generation.best?_population hgen)
  have hsolved : run.last.population.isSolved = true := by
    rcases hadvance.phase_cases with ⟨-, hsolved, -⟩ | ⟨hexhausted, -, -⟩
    · exact hsolved
    · rw [hphase] at hexhausted
      cases hexhausted
  obtain ⟨i, hi, hzero⟩ := Population.isSolved_iff.1 hsolved
  have hle : run.last.best.total ≤ 0 :=
    hzero ▸ hmin.le i (Array.mem_toList_iff.2 hi)
  obtain ⟨p, -, hbest⟩ := Generation.exists_best_of_of? hgen
  rw [← hbest] at hle ⊢
  exact Int.le_antisymm hle (hnonneg p)

/-- With readable symbols in the palette, and random programs to start from, the symbols of the best
program are readable. -/
theorem readable_best {config : Config} {evaluator : Evaluator} {run : Run}
    (h : evolve config evaluator none = .ok run)
    (hpalette : ∀ name, .sym name ∈ Program.parts config.palette → Readable name) :
    ∀ name, .sym name ∈ Program.parts run.last.best.program → Readable name := by
  obtain ⟨programs, ⟨-, hitems⟩, hgen⟩ := forall_generation_of_evolve
    (P := fun v => ∀ name, .sym name ∈ v.parts → Readable name) h
    (fun v hv name hname => hpalette name (Program.mem_parts_iff.2 ⟨v, hv, hname⟩)) nofun
    run.last (by simp [Run.generations])
  obtain ⟨p, hp, hbest⟩ := Generation.exists_best_of_of? hgen
  intro name hname
  rw [← hbest] at hname
  obtain ⟨v, hv, hname⟩ := Program.mem_parts_iff.1 hname
  exact hitems p hp v hv name hname

namespace CommandLine

open Breeding

/-! ## Sessions -/

namespace Options

variable {o : Options} {palette : Palette} {run : Run}

/-- The symbols of a palette are readable. -/
theorem readable_palette (h : o.palette = .ok palette) :
    ∀ name, .sym name ∈ Program.parts palette → Readable name := by
  unfold Options.palette at h
  split at h
  · cases h
    have hdefault : ∀ name ∈ ["in1", "integer_+", "integer_-", "integer_*", "integer_%"],
        Readable name := by decide
    intro name hname
    refine hdefault name ?_
    simpa [Palette.default, Program.parts, Value.itemParts, Value.parts] using hname
  · exact (writes_of_ofChars h).readable

/-- The inputs of the easy cases are the integers from -3 to 3. -/
theorem mem_inputs_of_easy {x : Int} (h : o.cases = .easy) (hlower : -3 ≤ x) (hupper : x ≤ 3) :
    x ∈ o.inputs := by
  obtain rfl | rfl | rfl | rfl | rfl | rfl | rfl :
      x = -3 ∨ x = -2 ∨ x = -1 ∨ x = 0 ∨ x = 1 ∨ x = 2 ∨ x = 3 := by omega
  all_goals simp [inputs, h, Cubic.easyInputs]

theorem mem_inputs_of_full {x : Int} (h : o.cases = .full)
    (hx : x ∈ [-50, -23, -18, -7, -3, -2, -1, 0, 1, 2, 3, 7, 18, 23, 50]) : x ∈ o.inputs := by
  rwa [inputs, h]

/-- A summary starts with another word than a solution. -/
theorem summary_ne_solution (run : Run) (solution : String) :
    run.summary ≠ "Solution: " ++ solution := by
  intro h
  unfold Run.summary StackBreeder.summary at h
  simp only [String.append_assoc] at h
  have hhead := congrArg (fun s : String => s.toList.head?) h
  simp only [String.toList_append, List.head?_append] at hhead
  revert hhead
  simp

/-- A solution is printed last only after success, and then it is the best program. -/
theorem solution_of_getLast?_prints {solution : String}
    (h : (o.prints run).getLast? = some ("Solution: " ++ solution)) :
    run.phase = .success ∧ solution = Program.print run.last.best.program := by
  unfold prints at h
  split at h
  · next hphase =>
    rw [List.getLast?_concat, Option.some.injEq, String.append_right_inj] at h
    exact ⟨hphase, h.symm⟩
  · -- Without success the last print is the summary.
    have hlast : run.summary = "Solution: " ++ solution := by
      simpa only [List.append_nil, List.getLast?_append, List.getLast?_cons_cons,
        List.getLast?_singleton, Option.some_or, Option.some.injEq] using h
    exact absurd hlast (summary_ne_solution run solution)

end Options

/-- If a command line is accepted, with a penalty above zero, and its session prints a solution
last, then the printed text is read as the best program of the evolution on its terms; and this
program halts on every input of the cases that are selected, with the cube of the input, plus the
input, plus three on top. The easy inputs are those from -3 to 3, and the full ones are fifteen. -/
theorem session_solution (args : List String) (o : Options) (t : Transcript) (solution : String)
    (hparse : Options.parse args = .ok o) (hpenalty : 0 < o.penalty)
    (hsession : session args = .ok t)
    (hlast : t.prints.getLast? = some ("Solution: " ++ solution)) :
    ∃ palette run, o.palette = .ok palette ∧
      evolve (o.config palette) o.regression.evaluator none = .ok run ∧
      Program.read solution = .ok run.last.best.program ∧
      ∀ x : Int,
        (o.cases = .easy ∧ -3 ≤ x ∧ x ≤ 3 ∨
          o.cases = .full ∧
            x ∈ [-50, -23, -18, -7, -3, -2, -1, 0, 1, 2, 3, 7, 18, 23, 50]) →
        ∃ final steps,
          runProgram .standard o.fuel .empty [.int x] run.last.best.program =
              (final, .halted steps) ∧
            final.top? .integer = some (x * x * x + x + 3) := by
  have hsession' : o.session = .ok t := by
    rw [← hsession, session, hparse]
  obtain ⟨palette, run, hpalette, hrun, hprints⟩ := Options.exists_of_session_eq_ok hsession'
  rw [hprints] at hlast
  obtain ⟨hphase, rfl⟩ := Options.solution_of_getLast?_prints hlast
  refine ⟨palette, run, hpalette, hrun, read_print (readable_best hrun ?_), fun x hx => ?_⟩
  · exact Options.readable_palette hpalette
  · have hcharges : o.regression.Charges := ⟨hpenalty, fun _ htimeout => by cases htimeout⟩
    have hzero := best_total_eq_zero hrun (Regression.total_evaluator_nonneg hcharges) hphase
    have hanswers := (Regression.total_evaluator_eq_zero_iff hcharges _).1 hzero
    have hinput : x ∈ o.inputs := by
      rcases hx with ⟨heasy, hlower, hupper⟩ | ⟨hfull, hx⟩
      · exact Options.mem_inputs_of_easy heasy hlower hupper
      · exact Options.mem_inputs_of_full hfull hx
    exact Regression.answer_eq_ok_iff.1 (hanswers _ (List.mem_map_of_mem hinput))

/-- The palette is one block that computes the function to be found, and there is one program, of
one item: it is a solution. -/
theorem session_solution_block :
    ∃ o t,
      Options.parse ["--population-size", "1", "--max-initial-program-size", "1", "--instructions",
        "(in1 in1 integer_* in1 integer_* in1 integer_+ 3 integer_+)"] = .ok o ∧
      0 < o.penalty ∧
      session ["--population-size", "1", "--max-initial-program-size", "1", "--instructions",
        "(in1 in1 integer_* in1 integer_* in1 integer_+ 3 integer_+)"] = .ok t ∧
      t.prints.getLast? = some ("Solution: " ++
        "((in1 in1 integer_* in1 integer_* in1 integer_+ 3 integer_+))") ∧
      ∃ palette run, o.palette = .ok palette ∧
        evolve (o.config palette) o.regression.evaluator none = .ok run ∧
        Program.read "((in1 in1 integer_* in1 integer_* in1 integer_+ 3 integer_+))" =
          .ok run.last.best.program ∧
        ∀ x ∈ [-50, -23, -18, -7, -3, -2, -1, 0, 1, 2, 3, 7, 18, 23, 50], ∃ final steps,
          runProgram .standard o.fuel .empty [.int x] run.last.best.program =
              (final, .halted steps) ∧
            final.top? .integer = some (x * x * x + x + 3) := by
  let o : Options :=
    { populationSize := 1
      maxProgramSize := 1
      instructions := "(in1 in1 integer_* in1 integer_* in1 integer_+ 3 integer_+)" }
  let v : Value := .block [.sym "in1", .sym "in1", .sym "integer_*", .sym "in1", .sym "integer_*",
    .sym "in1", .sym "integer_+", .int 3, .sym "integer_+"]
  have hparse : Options.parse ["--population-size", "1", "--max-initial-program-size", "1",
      "--instructions", "(in1 in1 integer_* in1 integer_* in1 integer_+ 3 integer_+)"] = .ok o := by
    decide +kernel
  have hlevel : o.level = .ok .warning := by decide +kernel
  have hpalette : o.palette = .ok [v] := by decide +kernel
  have hcheck : (o.config [v]).check none = .ok () := by decide +kernel
  have hvalid := Config.check_eq_ok_iff.1 hcheck
  -- The evolution starts from the program `[v]`, and ends there.
  obtain ⟨run, hrun⟩ := exists_evolve hvalid o.regression.evaluator
  obtain ⟨-, programs, g, g', hinitial, hadvance⟩ := evolve_eq_ok_iff.1 hrun
  obtain ⟨hlength, hprograms⟩ := (initial_yields_singleton hvalid rfl rfl).of_run hinitial
  obtain rfl : programs = List.replicate 1 [v] := List.eq_replicate_iff.2 ⟨hlength, hprograms⟩
  have hzero : (o.regression.evaluator [v]).total = 0 := by decide +kernel
  have hsolved : (Population.evaluate o.regression.evaluator [[v]]).isSolved = true :=
    Population.isSolved_evaluate_iff.2 ⟨_, .head _, hzero⟩
  obtain rfl := hadvance.eq_of_isSolved
    (show Generation.of? 0 _ = some ⟨0, .evaluate o.regression.evaluator [[v]],
      .ofProgram o.regression.evaluator [v]⟩ from rfl) hsolved
  have hfits : Text.Fits (o.regression.evaluator [v]).total := by
    rw [hzero]
    decide
  have hstopped : ¬ o.IsStopped := by
    rintro ⟨f, hf, -⟩
    cases hf
  obtain ⟨t, hsession, hprints⟩ := (Options.session_of_fits hlevel hpalette rfl hrun
    (List.forall_mem_singleton.2 (Report.fits_single_iff.2 hfits))).resolve_left hstopped
  have hlast : t.prints.getLast? = some ("Solution: " ++
      "((in1 in1 integer_* in1 integer_* in1 integer_+ 3 integer_+))") := by
    have hprint : Program.print [v] =
        "((in1 in1 integer_* in1 integer_* in1 integer_+ 3 integer_+))" := by
      decide +kernel
    rw [hprints, Options.prints, if_pos rfl, List.getLast?_concat]
    exact congrArg (fun text => some ("Solution: " ++ text)) hprint
  rw [← session_eq hparse] at hsession
  obtain ⟨palette, run, hpalette', hrun', hread, hsolution⟩ :=
    session_solution _ o t _ hparse (by decide) hsession hlast
  exact ⟨o, t, hparse, by decide, hsession, hlast, palette, run, hpalette', hrun', hread,
    fun x hx => hsolution x (.inr ⟨rfl, hx⟩)⟩

end CommandLine

end StackBreeder
