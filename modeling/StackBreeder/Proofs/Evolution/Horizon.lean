import StackBreeder.Proofs.Evolution.History

/-!
# The horizon of an evolution

How many generations an evolution may have does not influence them: with a later last generation it
has the same generations, and then more of them, unless it ended with success
(`Advances.exists_extension`). For whole evolutions this is `evolve_extension`.
-/

namespace StackBreeder

@[simp] theorem Run.generations_after (run : Run) (gen : Generation) :
    (run.after gen).generations = gen :: run.generations := rfl

theorem Run.length_history (run : Run) : run.history.length = run.earlier.length + 1 := by
  simp [history, generations]

/-- With more generations left an evolution repeats its course and then goes on, unless it ended
with success. -/
theorem Advances.exists_extension {G : Type} {evaluator : Evaluator}
    {next : Population → Breeding G (List Program)} {Q : Nat → List Program → Prop}
    {left left' number : Nat} {programs : List Program} {g g' : G} {run : Run}
    (hQ : Hereditary evaluator next Q)
    (h : Advances evaluator next left number programs g run g') (hstart : Q number programs)
    (hle : left ≤ left') :
    ∃ longer g'', Advances evaluator next left' number programs g longer g'' ∧
      run.generations <+: longer.generations ∧ (run.phase = .success → longer = run) := by
  induction h generalizing left' with
  | success hgen hsolved =>
    exact ⟨_, _, .success hgen hsolved, List.prefix_rfl, fun _ => rfl⟩
  | exhausted hgen =>
    -- The longer evolution goes on from the same programs, and its first generation is this one.
    obtain ⟨longer, g'', h⟩ := hQ.exists_advances hstart left' _
    obtain ⟨later, hlater⟩ := h.generations_eq_cons hgen
    exact ⟨longer, g'', h, ⟨later, hlater.symm⟩, nofun⟩
  | @next left number programs programs' g g₁ g₂ gen run hgen hunsolved hnext _ ih =>
    obtain ⟨left', rfl⟩ := Nat.exists_eq_add_of_le' (Nat.le_trans (Nat.succ_pos left) hle)
    obtain ⟨-, hpopulation, -⟩ := Generation.of?_eq_some_iff.1 hgen
    have hQ' : Q (number + 1) programs' := (hQ.yields hstart).of_run (hpopulation ▸ hnext)
    obtain ⟨longer, g'', h, hprefix, hsuccess⟩ := ih hQ' (Nat.le_of_succ_le_succ hle)
    refine ⟨longer.after gen, g'', .next hgen hunsolved hnext h, ?_, fun hphase => ?_⟩
    · exact List.cons_prefix_cons.2 ⟨rfl, hprefix⟩
    · rw [hsuccess hphase]

/-- The terms of an evolution stay valid with a later last generation. -/
theorem Config.Valid.extend {config : Config} {given : Option (List Program)}
    (h : config.Valid given) {limit : Int} (hle : config.maxGenerations ≤ limit) :
    { config with maxGenerations := limit }.Valid given :=
  { h with maxGenerations_nonneg := Int.le_trans h.maxGenerations_nonneg hle }

/-- Two evolutions on terms that differ in the number of the last generation only: the history of
the longer one starts with that of the shorter one. If this ends with success the two are the same.
If it ends exhausted the longer one does not end before, and has the same reports up to there. -/
theorem evolve_extension (config : Config) (evaluator : Evaluator)
    (given : Option (List Program)) (limit : Int) (h : config.check given = .ok ())
    (hle : config.maxGenerations ≤ limit) :
    ∃ run longer, evolve config evaluator given = .ok run ∧
      evolve { config with maxGenerations := limit } evaluator given = .ok longer ∧
      run.history <+: longer.history ∧
      (run.phase = .success → longer = run) ∧
      (run.phase = .exhausted → run.last.number ≤ longer.last.number ∧
        longer.history.take (run.last.number + 1) = run.history) := by
  have hvalid := Config.check_eq_ok_iff.1 h
  obtain ⟨run, hrun⟩ := exists_evolve hvalid evaluator
  obtain ⟨-, programs, g, g', hinitial, hadvance⟩ := evolve_eq_ok_iff.1 hrun
  have hprograms := (initial_yields (P := fun _ => True) hvalid (fun _ _ => trivial)
    fun _ _ _ _ _ _ => trivial).of_run hinitial
  obtain ⟨longer, g'', hadvance', hprefix, hsuccess⟩ := hadvance.exists_extension
    (offspring_hereditary hvalid evaluator fun _ _ => trivial) hprograms
    (Int.toNat_le_toNat hle)
  have hinitial' : (initial { config with maxGenerations := limit } given).run
      (Twister.ofSeed config.seed) = (.ok programs, g) := by
    cases given <;> exact hinitial
  have hlonger : evolve { config with maxGenerations := limit } evaluator given = .ok longer :=
    evolve_eq_ok_iff.2 ⟨hvalid.extend hle, programs, g, g'', hinitial', hadvance'⟩
  have hhistory : run.history <+: longer.history := hprefix.map _
  have hlength := run.length_history
  have hlength' := longer.length_history
  have hlast := hadvance.last_number
  have hlast' := hadvance'.last_number
  refine ⟨run, longer, hrun, hlonger, hhistory, hsuccess, fun _ => ⟨?_, ?_⟩⟩
  · have := hhistory.length_le
    omega
  · rw [show run.last.number + 1 = run.history.length by omega]
    exact (List.prefix_iff_eq_take.1 hhistory).symm

/-- The terms that nobody changes, with a thousand generations. -/
theorem evolve_extension_default :
    Config.check {} none = .ok () ∧ (100 : Int) ≤ 1000 ∧
      ∃ run longer, evolve {} (fun p => .ofErrors [1, p.length]) none = .ok run ∧
        evolve { maxGenerations := 1000 } (fun p => .ofErrors [1, p.length]) none = .ok longer ∧
        run.history <+: longer.history ∧
        (run.phase = .success → longer = run) ∧
        (run.phase = .exhausted → run.last.number ≤ longer.last.number ∧
          longer.history.take (run.last.number + 1) = run.history) :=
  have hcheck : Config.check {} none = .ok () := by decide
  ⟨hcheck, by decide, evolve_extension {} _ none 1000 hcheck (by decide)⟩

end StackBreeder
