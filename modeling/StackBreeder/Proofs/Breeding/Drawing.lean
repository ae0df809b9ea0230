import Mathlib.Data.List.Forall2
import StackBreeder.Breeding.Error
import StackBreeder.Random.Source

/-!
# Computations that draw

`Breeding.Yields act P` says that a computation does not fail, whatever it draws, and that its
result satisfies `P`. The rules below derive it along the structure of a computation: for a value,
for one computation after another, for draws, and for computations that are repeated or done for
every member of a list.
-/

namespace StackBreeder

/-- What a drawing action always gives, it gives as often as it is repeated. -/
theorem times_fst {G α : Type} {act : StateM G α} {P : α → Prop} (h : ∀ g, P (act g).1) (n : Nat)
    (g : G) : (times n act g).1.length = n ∧ ∀ x ∈ (times n act g).1, P x := by
  induction n generalizing g with
  | zero => exact ⟨rfl, nofun⟩
  | succ n ih =>
    rw [times_succ]
    obtain ⟨hlength, hall⟩ := ih (act g).2
    exact ⟨congrArg (· + 1) hlength, List.forall_mem_cons.2 ⟨h g, hall⟩⟩

namespace Breeding

variable {G α β : Type} {act : Breeding G α} {f : α → Breeding G β} {g g' g'' : G} {x : α} {y : β}
  {P Q : α → Prop} {R : β → Prop}

/-- A computation after another one: the first runs, and its result says how it goes on. -/
theorem run_bind : (act >>= f).run g = match act.run g with
    | (.ok x, g') => (f x).run g'
    | (.error e, g') => (.error e, g') := by
  rw [ExceptT.run_bind]
  show StateT.bind act.run _ g = _
  simp only [StateT.bind]
  rcases act.run g with ⟨_ | _, _⟩ <;> rfl

/-- After a computation that succeeds the next one goes on from its result and its source. -/
theorem run_bind_of_ok (h : act.run g = (.ok x, g')) : (act >>= f).run g = (f x).run g' := by
  rw [run_bind, h]

/-- After a computation that fails there is no next one. -/
theorem run_bind_of_error {e : BreedingError} (h : act.run g = (.error e, g')) :
    (act >>= f).run g = (.error e, g') := by
  rw [run_bind, h]

/-- What is made of the result of a computation changes no draws. -/
theorem run_map_fst (f : α → β) : ((f <$> act).run g).1 = (act.run g).1.map f := by
  rw [ExceptT.run_map]
  rfl

/-- A draw does not fail, and the next computation goes on from its result and its source. -/
theorem run_lift_bind {act : StateM G α} :
    (liftM act >>= f).run g = (f (act g).1).run (act g).2 :=
  run_bind_of_ok rfl

/-- Two computations, one after the other, succeed only if both do. -/
theorem exists_of_run_bind (h : (act >>= f).run g = (.ok y, g'')) :
    ∃ x g', act.run g = (.ok x, g') ∧ (f x).run g' = (.ok y, g'') := by
  rw [run_bind] at h
  split at h
  next x g' hact => exact ⟨x, g', hact, h⟩
  next => cases h

/-- From every source the computation succeeds, with a result that satisfies `P`. -/
def Yields (act : Breeding G α) (P : α → Prop) : Prop :=
  ∀ g, ∃ x g', act.run g = (.ok x, g') ∧ P x

/-- The result of a run has what is true of all results. -/
theorem Yields.of_run (h : Yields act P) (hrun : act.run g = (.ok x, g')) : P x := by
  obtain ⟨x', g'', hrun', hx⟩ := h g
  rw [hrun] at hrun'
  cases hrun'
  exact hx

theorem Yields.mono (h : Yields act P) (hPQ : ∀ x, P x → Q x) : Yields act Q := fun g =>
  let ⟨x, g', hrun, hx⟩ := h g
  ⟨x, g', hrun, hPQ x hx⟩

theorem Yields.pure (h : P x) : Yields (pure x : Breeding G α) P := fun g => ⟨x, g, rfl, h⟩

theorem Yields.bind (h : Yields act P) (hf : ∀ x, P x → Yields (f x) R) :
    Yields (act >>= f) R := by
  intro g
  obtain ⟨x, g', hrun, hx⟩ := h g
  obtain ⟨y, g'', hrun', hy⟩ := hf x hx g'
  exact ⟨y, g'', by rw [run_bind_of_ok hrun, hrun'], hy⟩

/-- Draws do not fail. -/
theorem Yields.lift {act : StateM G α} (h : ∀ g, P (act g).1) :
    Yields (liftM act : Breeding G α) P :=
  fun g => ⟨(act g).1, (act g).2, rfl, h g⟩

/-- A computation after a draw that may give anything. -/
theorem Yields.draw_bind {act : StateM G α} (hf : ∀ x, Yields (f x) R) :
    Yields (liftM act >>= f) R :=
  .bind (P := fun _ => True) (.lift fun _ => trivial) fun x _ => hf x

/-- Draws of one kind, a number of times. -/
theorem Yields.times_lift {act : StateM G α} (h : ∀ g, P (act g).1) (n : Nat) :
    Yields (liftM (times n act) : Breeding G (List α)) fun xs => xs.length = n ∧ ∀ x ∈ xs, P x :=
  .lift (times_fst h n)

theorem Yields.times (h : Yields act P) (n : Nat) :
    Yields (times n act) fun xs => xs.length = n ∧ ∀ x ∈ xs, P x := by
  induction n with
  | zero => exact .pure ⟨rfl, nofun⟩
  | succ n ih =>
    rw [times_succ]
    exact h.bind fun x hx => ih.bind fun xs ⟨hlength, hall⟩ =>
      .pure ⟨congrArg (· + 1) hlength, List.forall_mem_cons.2 ⟨hx, hall⟩⟩

/-- Each member of a list leads to a result of its own. -/
theorem Yields.mapM {xs : List α} {S : α → β → Prop} (h : ∀ x ∈ xs, Yields (f x) (S x)) :
    Yields (xs.mapM f) (List.Forall₂ S xs) := by
  induction xs with
  | nil => exact .pure .nil
  | cons x xs ih =>
    obtain ⟨hx, hxs⟩ := List.forall_mem_cons.1 h
    rw [List.mapM_cons]
    exact hx.bind fun y hy => (ih hxs).bind fun ys hys => .pure (.cons hy hys)

end Breeding

end StackBreeder
