import StackBreeder.CommandLine.Session
import StackBreeder.Proofs.Evolution.Conduct

/-!
# What becomes of a session

A session at a level of the log goes one of these ways, by its palette and its terms: the palette
cannot be read (`session_of_unreadable`), the terms have a fault (`session_of_fault`), there is no
pool (`session_of_pool`), or there is an evolution. This is printed if all of its log can be written
(`session_of_fits`), and otherwise up to the generation whose log cannot (`session_of_not_fits`). On
all ways but the first an option that was given without a value may stand in the way (`IsStopped`),
and nothing else.
-/

namespace StackBreeder.CommandLine

variable {o : Options} {level : LogLevel} {t : Transcript} {palette : Palette} {run : Run}

/-- The session of a command line that is accepted. -/
theorem session_eq {args : List String} (h : Options.parse args = .ok o) :
    session args = o.session := by
  rw [session, h]

namespace Options

/-- The session needs the value of an option that was given without one. -/
def IsStopped (o : Options) : Prop := ∃ f ∈ o.missing, o.session = .error (.missing f)

/-- The options whose values are needed before the evolution starts: all of them, or those up to the
one that the first fault of the terms is about. -/
def reads (config : Config) : List Flag :=
  match config.check none with
  | .ok () => needed
  | .error e => needed.takeWhile (· ≠ Flag.ofConfigError e) ++ [Flag.ofConfigError e]

/-- The first fault of the terms is an option without a value, or else what the check reports. -/
theorem fault?_cases (o : Options) (config : Config) :
    (∃ f ∈ o.missing, f ∈ reads config ∧ o.fault? config = some (.missing f)) ∨
    ((∀ f ∈ o.missing, f ∉ reads config) ∧
      ((∃ e, config.check none = .error e ∧ o.fault? config = some (.configuration (.config e))) ∨
        (config.check none = .ok () ∧ o.fault? config = none))) := by
  have hnone {l : List Flag} (h : l.find? (· ∈ o.missing) = none) : ∀ f ∈ o.missing, f ∉ l := by
    intro f hf hl
    simpa [hf] using List.find?_eq_none.1 h f hl
  unfold fault? reads
  cases config.check none with
  | ok =>
    cases hfind : needed.find? (· ∈ o.missing) with
    | none => exact .inr ⟨hnone hfind, .inr ⟨rfl, rfl⟩⟩
    | some f =>
      exact .inl ⟨f, by simpa using List.find?_some hfind, List.mem_of_find?_eq_some hfind, rfl⟩
  | error e =>
    dsimp only
    split
    · next f hfind =>
      exact .inl ⟨f, by simpa using List.find?_some hfind, List.mem_of_find?_eq_some hfind, rfl⟩
    · next hfind => exact .inr ⟨hnone hfind, .inl ⟨e, rfl, rfl⟩⟩

theorem session_eq_sessionWith (hlevel : o.level = .ok level) (hpalette : o.palette = .ok palette) :
    o.session = o.sessionWith level palette := by
  simp only [session, hlevel, hpalette]

/-- A palette that cannot be read is the first thing to be reported. -/
theorem session_of_unreadable {e : ReadError} (hlevel : o.level = .ok level)
    (hpalette : o.palette = .error e) : o.session = .error (.instructions e) := by
  simp only [session, hlevel, hpalette]

/-- On terms with a fault the session reports what the check reports, unless it is stopped
before. -/
theorem session_of_fault {e : ConfigError} (hlevel : o.level = .ok level)
    (hpalette : o.palette = .ok palette) (hcheck : (o.config palette).check none = .error e) :
    o.IsStopped ∨ o.session = .error (.configuration (.config e)) := by
  rw [IsStopped, session_eq_sessionWith hlevel hpalette]
  unfold sessionWith
  rcases o.fault?_cases (o.config palette) with
    ⟨f, hf, -, hfault⟩ | ⟨-, ⟨e', hcheck', hfault⟩ | ⟨hcheck', -⟩⟩
  · exact .inl ⟨f, hf, by simp only [hfault]⟩
  · rw [hcheck] at hcheck'
    cases hcheck'
    exact .inr (by simp only [hfault])
  · rw [hcheck] at hcheck'
    cases hcheck'

/-- On terms without a fault the session is what its evolution comes to, unless it is stopped
before. -/
theorem session_of_check (hlevel : o.level = .ok level) (hpalette : o.palette = .ok palette)
    (hcheck : (o.config palette).check none = .ok ()) :
    o.IsStopped ∨ o.session = o.conclude level (o.config palette)
      (conduct o.lacksPenalty (o.config palette) o.regression.evaluator none) := by
  rw [IsStopped, session_eq_sessionWith hlevel hpalette]
  unfold sessionWith
  rcases o.fault?_cases (o.config palette) with
    ⟨f, hf, -, hfault⟩ | ⟨-, ⟨e, hcheck', -⟩ | ⟨-, hfault⟩⟩
  · exact .inl ⟨f, hf, by simp only [hfault]⟩
  · rw [hcheck] at hcheck'
    cases hcheck'
  · simp only [hfault]
    split_ifs with hfuel
    · exact .inl ⟨.fuel, hfuel.1, rfl⟩
    · exact .inr rfl

/-- Without a pool nothing is printed. -/
theorem session_of_pool {cause : Disruption} (hlevel : o.level = .ok level)
    (hpalette : o.palette = .ok palette) (hcheck : (o.config palette).check none = .ok ())
    (hpool : (o.config palette).pool = .error cause) :
    o.IsStopped ∨ o.session = .error (.disruption cause []) := by
  refine (session_of_check hlevel hpalette hcheck).imp_right fun h => ?_
  rw [h, conduct_of_pool hcheck hpool]
  cases Config.pool_eq_error_iff.1 hpool <;> rfl

/-- A program that needs the penalty when it is missing stops the session. -/
theorem isStopped_of_evaluation
    (hsession : o.session = o.conclude level (o.config palette) (run.conduct o.lacksPenalty))
    (h : (run.conduct o.lacksPenalty).result = .error (.disruption .evaluation)) :
    o.IsStopped := by
  obtain ⟨_, _, _, _, -, i, _, hlacks⟩ := Run.conduct_evaluation_iff.1 h
  simp only [lacksPenalty, Bool.and_eq_true, decide_eq_true_eq] at hlacks
  refine ⟨.penalty, hlacks.1, ?_⟩
  rw [hsession, conclude, h]

/-- With a pool the session is what its run comes to, unless it is stopped. -/
theorem session_of_evolve {pool : Option Pool} (hlevel : o.level = .ok level)
    (hpalette : o.palette = .ok palette) (hpool : (o.config palette).pool = .ok pool)
    (hrun : evolve (o.config palette) o.regression.evaluator none = .ok run) :
    o.IsStopped ∨
      ((run.conduct o.lacksPenalty).result ≠ .error (.disruption .evaluation) ∧
        o.session = o.conclude level (o.config palette) (run.conduct o.lacksPenalty)) := by
  have hcheck := Config.check_eq_ok_iff.2 (evolve_eq_ok_iff.1 hrun).1
  rcases session_of_check hlevel hpalette hcheck with hstopped | hsession
  · exact .inl hstopped
  · rw [conduct_of_evolve hpool hrun] at hsession
    by_cases h : (run.conduct o.lacksPenalty).result = .error (.disruption .evaluation)
    · exact .inl (isStopped_of_evaluation hsession h)
    · exact .inr ⟨h, hsession⟩

/-- An evolution whose log can be written is printed, unless the session is stopped. -/
theorem session_of_fits {pool : Option Pool} (hlevel : o.level = .ok level)
    (hpalette : o.palette = .ok palette) (hpool : (o.config palette).pool = .ok pool)
    (hrun : evolve (o.config palette) o.regression.evaluator none = .ok run)
    (hfits : ∀ gen ∈ run.generations, gen.report.Fits) :
    o.IsStopped ∨ ∃ t, o.session = .ok t ∧ t.prints = o.prints run := by
  refine (session_of_evolve hlevel hpalette hpool hrun).imp_right fun ⟨hpenalty, hsession⟩ => ?_
  rcases run.disruption_cases o.lacksPenalty with
    hnone | ⟨before, gen, later, cause, hgenerations, hbefore, hgen⟩
  · rw [Run.conduct_of_forall hnone] at hsession
    exact ⟨_, hsession, rfl⟩
  · rw [Run.conduct_of_append hgenerations hbefore hgen] at hpenalty
    rcases Generation.disruption?_eq_some_iff.1 hgen with ⟨rfl, -⟩ | ⟨-, -, hnot⟩
    · exact absurd rfl hpenalty
    · exact absurd (hfits gen (by simp [hgenerations])) hnot

/-- The generations before the one whose log cannot be written are printed, unless the session is
stopped. -/
theorem session_of_not_fits {pool : Option Pool} {before later : List Generation}
    {gen : Generation} (hlevel : o.level = .ok level) (hpalette : o.palette = .ok palette)
    (hpool : (o.config palette).pool = .ok pool)
    (hrun : evolve (o.config palette) o.regression.evaluator none = .ok run)
    (hgenerations : run.generations = before ++ gen :: later)
    (hbefore : ∀ earlier ∈ before, earlier.report.Fits) (hgen : ¬ gen.report.Fits) :
    o.IsStopped ∨
      o.session = .error (.disruption .digits (before.map fun g => o.reportText g.report)) := by
  refine (session_of_evolve hlevel hpalette hpool hrun).imp_right fun ⟨hpenalty, hsession⟩ => ?_
  -- No program up to this generation needs the penalty: the session would be stopped there.
  have hlacks {front back : List Generation} {g : Generation}
      (h : run.generations = front ++ g :: back) (hfront : ∀ earlier ∈ front, earlier.report.Fits) :
      ∀ i ∈ g.population, o.lacksPenalty i.program = false := by
    intro i hi
    by_contra hfails
    exact hpenalty (Run.conduct_of_fails h hfront hi (by simpa using hfails))
  have hnone : ∀ earlier ∈ before, earlier.disruption? o.lacksPenalty = none := by
    intro earlier hearlier
    obtain ⟨front, back, rfl⟩ := List.append_of_mem hearlier
    refine Generation.disruption?_eq_none_iff.2 ⟨?_, hbefore earlier hearlier⟩
    refine hlacks (by rw [hgenerations, List.append_assoc, List.cons_append]) fun g hg => ?_
    exact hbefore g (List.mem_append_left _ hg)
  have hdigits : gen.disruption? o.lacksPenalty = some .digits :=
    Generation.disruption?_eq_some_iff.2 (.inr ⟨rfl, hlacks hgenerations hbefore, hgen⟩)
  rw [hsession, Run.conduct_of_append hgenerations hnone hdigits]
  rfl

/-- A session that is not refused prints the evolution on its terms. -/
theorem exists_of_session_eq_ok (h : o.session = .ok t) :
    ∃ palette run, o.palette = .ok palette ∧
      evolve (o.config palette) o.regression.evaluator none = .ok run ∧
      t.prints = o.prints run := by
  cases hlevel : o.level with
  | error refusal =>
    rw [session, hlevel] at h
    cases h
  | ok level =>
    cases hpalette : o.palette with
    | error e =>
      rw [session_of_unreadable hlevel hpalette] at h
      cases h
    | ok palette =>
      rcases evolution_cases (o.config palette) o.regression.evaluator none with
        ⟨e, hcheck⟩ | ⟨hcheck, cause, hpool⟩ |
        ⟨pool, run, hpool, hrun, hfits | ⟨before, gen, later, hgenerations, hbefore, hgen⟩⟩
      · rcases session_of_fault hlevel hpalette hcheck with ⟨f, -, hsession⟩ | hsession
        all_goals
          rw [hsession] at h
          cases h
      · rcases session_of_pool hlevel hpalette hcheck hpool with ⟨f, -, hsession⟩ | hsession
        all_goals
          rw [hsession] at h
          cases h
      · rcases session_of_fits hlevel hpalette hpool hrun hfits with
          ⟨f, -, hsession⟩ | ⟨t', hsession, hprints⟩
        all_goals
          rw [hsession] at h
          cases h
        exact ⟨palette, run, rfl, hrun, hprints⟩
      · rcases session_of_not_fits hlevel hpalette hpool hrun hgenerations hbefore hgen with
          ⟨f, -, hsession⟩ | hsession
        all_goals
          rw [hsession] at h
          cases h

end Options

end StackBreeder.CommandLine
