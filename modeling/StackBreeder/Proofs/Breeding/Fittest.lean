import Mathlib.Algebra.Order.Ring.Int
import StackBreeder.Breeding.Individual

/-!
# The fittest

Of several individuals with the least total error the earliest counts. `IsEarliestMin` says this of
any list and measure, and `minOn?_eq_some_iff` that it is what is chosen. The choice depends on the
order of the measure only (`minOn?_comp`), and a choice among the images of a function is the
image of a choice (`minOn?_map`).
-/

namespace StackBreeder

section
variable {α β : Type} {measure : α → Int} {xs : List α} {x : α}

/-- A member of a list at which a measure is least, and less than at all members before it. -/
def IsEarliestMin (measure : α → Int) (xs : List α) (x : α) : Prop :=
  ∃ front back, xs = front ++ x :: back ∧ (∀ y ∈ front, measure x < measure y) ∧
    ∀ y ∈ back, measure x ≤ measure y

theorem IsEarliestMin.mem (h : IsEarliestMin measure xs x) : x ∈ xs := by
  obtain ⟨front, back, rfl, -, -⟩ := h
  simp

theorem IsEarliestMin.le (h : IsEarliestMin measure xs x) : ∀ y ∈ xs, measure x ≤ measure y := by
  obtain ⟨front, back, rfl, hfront, hback⟩ := h
  intro y hy
  rcases List.mem_append.1 hy with hy | hy
  · exact Int.le_of_lt (hfront y hy)
  · rcases List.mem_cons.1 hy with rfl | hy
    · exact Int.le_refl _
    · exact hback y hy

/-- The choice from a list is the choice from the rest, unless the first member is as good. -/
theorem minOn?_cons_of_some {y : α} (h : xs.minOn? measure = some y) :
    (x :: xs).minOn? measure = some (if measure x ≤ measure y then x else y) := by
  rw [List.minOn?_cons, h, Option.elim_some, minOn]

/-- What is chosen from a list is the earliest of its members of the least measure. -/
theorem minOn?_eq_some_iff : xs.minOn? measure = some x ↔ IsEarliestMin measure xs x := by
  constructor
  · intro h
    induction xs generalizing x with
    | nil => cases h
    | cons a xs ih =>
      cases hxs : xs.minOn? measure with
      | none =>
        rw [List.minOn?_cons, hxs] at h
        obtain rfl : a = x := by simpa using h
        have hnil : xs = [] := by
          by_contra hne
          simpa [hxs] using List.isSome_minOn?_iff (f := measure).2 hne
        exact ⟨[], xs, rfl, nofun, by simp [hnil]⟩
      | some y =>
        have hy := ih hxs
        rw [minOn?_cons_of_some hxs] at h
        split at h
        · next hle =>
          obtain rfl : a = x := by simpa using h
          exact ⟨[], xs, rfl, nofun, fun z hz => Int.le_trans hle (hy.le z hz)⟩
        · next hlt =>
          obtain rfl : y = x := by simpa using h
          obtain ⟨front, back, rfl, hfront, hback⟩ := hy
          exact ⟨a :: front, back, rfl,
            List.forall_mem_cons.2 ⟨Int.not_le.1 hlt, hfront⟩, hback⟩
  · rintro ⟨front, back, rfl, hfront, hback⟩
    induction front with
    | nil =>
      cases hback' : back.minOn? measure with
      | none => rw [List.nil_append, List.minOn?_cons, hback', Option.elim_none]
      | some y =>
        rw [List.nil_append, minOn?_cons_of_some hback',
          if_pos (hback y (List.minOn?_mem hback'))]
    | cons a front ih =>
      obtain ⟨ha, hfront⟩ := List.forall_mem_cons.1 hfront
      rw [List.cons_append, minOn?_cons_of_some (ih hfront), if_neg (Int.not_le.2 ha)]

/-- A choice among images is the image of a choice. -/
theorem minOn?_map (f : β → α) (ys : List β) :
    (ys.map f).minOn? measure = (ys.minOn? fun y => measure (f y)).map f := by
  induction ys with
  | nil => rfl
  | cons b ys ih =>
    rw [List.map_cons, List.minOn?_cons, ih, List.minOn?_cons]
    cases ys.minOn? (fun y => measure (f y)) with
    | none => rfl
    | some y =>
      simp only [Option.map_some, Option.elim_some, minOn]
      split <;> rfl

end

/-- The total error is the sum of the errors. -/
theorem totalError_eq_sum (errors : List Int) : totalError errors = errors.sum := rfl

namespace Population

variable {population : Population} {evaluator : Evaluator} {programs : List Program}

/-- There is a best individual in every population with a member. -/
theorem exists_best? (h : population.toList ≠ []) : ∃ best, population.best? = some best :=
  Option.isSome_iff_exists.1 (List.isSome_minOn?_iff.2 h)

theorem isSolved_iff : population.isSolved = true ↔ ∃ i ∈ population, i.total = 0 := by
  simp only [isSolved, Array.any_eq_true', decide_eq_true_eq]

theorem isSolved_evaluate_iff :
    (evaluate evaluator programs).isSolved = true ↔ ∃ p ∈ programs, (evaluator p).total = 0 := by
  rw [isSolved_iff]
  simp [evaluate, Individual.ofProgram]

end Population

end StackBreeder
