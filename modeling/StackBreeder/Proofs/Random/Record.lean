import Mathlib.Logic.Function.Iterate
import StackBreeder.Random.Script

/-!
# Draws on record

A `Draw` is a draw together with its result. `Draws g draws g'` says that a source `g` gives these
results when it is asked for them in this order, and that it is `g'` after that. A computation that
leads from every source `g`, whatever its kind, to a source `g'` with `Draws g draws g'` has made
exactly these draws. For there are sources that keep a record of all draws from them (`Recorded`),
and the record of such a source has grown by `draws` (`Draws.record_eq`).

What is drawn when one kind of draw is repeated is read off the sources that follow each other
(`times_eq_map_range`); from a script it is what the script says (`Script.draws_unit`).
-/

namespace StackBreeder

section
variable {G α : Type} (act : StateM G α) (n : Nat) (g : G)

/-- An action that is done once more goes on from the source after the first time. -/
theorem times_succ_run :
    times (n + 1) act g = ((act g).1 :: (times n act (act g).2).1, (times n act (act g).2).2) := by
  rw [times_succ]
  rfl

/-- An action that is repeated gives what it gives from the sources that it leads to, one after the
other. -/
theorem times_eq_map_range :
    times n act g = ((List.range n).map fun i => (act ((fun g => (act g).2)^[i] g)).1,
      (fun g => (act g).2)^[n] g) := by
  induction n generalizing g with
  | zero => rfl
  | succ n ih =>
    rw [times_succ_run, ih, List.range_succ_eq_map, List.map_cons, List.map_map]
    rfl

end

/-- A draw with its result. -/
inductive Draw where
  /-- This number of the unit interval was drawn. -/
  | unit (d : Rat)
  /-- This number below the bound was drawn. -/
  | below (bound : Nat) (i : Fin bound)

section
variable {G : Type} [RandomSource G]

/-- Draws, one after the other, with the source before the first and the one after the last. -/
inductive Draws : G → List Draw → G → Prop
  | nil {g : G} : Draws g [] g
  | consUnit {g g' g'' : G} {d : Rat} {draws : List Draw} (h : RandomSource.unit g = (d, g'))
      (rest : Draws g' draws g'') : Draws g (.unit d :: draws) g''
  | consBelow {g g' g'' : G} {bound : Nat} {i : Fin bound} {draws : List Draw} (hbound : 0 < bound)
      (h : RandomSource.below bound hbound g = (i, g')) (rest : Draws g' draws g'') :
      Draws g (.below bound i :: draws) g''

variable {g g' g'' : G} {draws draws' : List Draw} {ds : List Rat}

theorem Draws.append (h : Draws g draws g') (h' : Draws g' draws' g'') :
    Draws g (draws ++ draws') g'' := by
  induction h with
  | nil => exact h'
  | consUnit h _ ih => exact .consUnit h (ih h')
  | consBelow hbound h _ ih => exact .consBelow hbound h (ih h')

/-! ## Repeated draws -/

/-- An action that makes one draw makes one draw each time. -/
theorem draws_times {α : Type} {act : StateM G α} {f : α → Draw}
    (h : ∀ g, Draws g [f (act g).1] (act g).2) (n : Nat) (g : G) :
    Draws g ((times n act g).1.map f) (times n act g).2 := by
  induction n generalizing g with
  | zero => exact .nil
  | succ n ih =>
    rw [times_succ_run]
    exact (h g).append (ih (act g).2)

theorem draws_drawUnit (g : G) : Draws g [.unit (drawUnit g).1] (drawUnit g).2 :=
  .consUnit rfl .nil

theorem draws_drawBelow {bound : Nat} (hbound : 0 < bound) (g : G) :
    Draws g [.below bound (drawBelow bound hbound g).1] (drawBelow bound hbound g).2 :=
  .consBelow hbound rfl .nil

/-- Every source gives numbers of the unit interval, as many as are asked for. -/
theorem exists_draws_unit (n : Nat) (g : G) :
    ∃ (ds : List Rat) (g' : G), ds.length = n ∧ Draws g (ds.map .unit) g' :=
  ⟨_, _, by rw [times_eq_map_range, List.length_map, List.length_range],
    draws_times draws_drawUnit n g⟩

/-- Numbers of the unit interval that a source gives are what is drawn from it. -/
theorem Draws.times_drawUnit (h : Draws g (ds.map .unit) g') :
    times ds.length drawUnit g = (ds, g') := by
  induction ds generalizing g with
  | nil =>
    cases h
    rfl
  | cons d ds ih =>
    cases h with
    | consUnit h rest =>
      rw [List.length_cons, times_succ_run, drawUnit, h, ih rest]

end

/-! ## Draws that choose -/

/-- If a test of the draws of the unit interval can go either way, then there are draws that keep
given members of a list. -/
theorem exists_filter_zip_eq {α : Type} {keep : Rat → Bool}
    (hkeep : ∀ choice, ∃ d : Rat, (0 ≤ d ∧ d < 1) ∧ keep d = choice) {xs ys : List α}
    (h : ys.Sublist xs) :
    ∃ ds : List Rat, ds.length = xs.length ∧ (∀ d ∈ ds, 0 ≤ d ∧ d < 1) ∧
      ((ds.zip xs).filter fun dx => keep dx.1).map (·.2) = ys := by
  induction h with
  | slnil => exact ⟨[], rfl, nofun, rfl⟩
  | cons x _ ih =>
    obtain ⟨ds, hlength, hds, rfl⟩ := ih
    obtain ⟨d, hd, hchoice⟩ := hkeep false
    exact ⟨d :: ds, congrArg (· + 1) hlength, List.forall_mem_cons.2 ⟨hd, hds⟩, by simp [hchoice]⟩
  | cons_cons x _ ih =>
    obtain ⟨ds, hlength, hds, rfl⟩ := ih
    obtain ⟨d, hd, hchoice⟩ := hkeep true
    exact ⟨d :: ds, congrArg (· + 1) hlength, List.forall_mem_cons.2 ⟨hd, hds⟩, by simp [hchoice]⟩

/-! ## Scripts -/

/-- A script gives what it says, and leaves the other source as it is. -/
theorem Script.draws_unit {G : Type} [RandomSource G] (ds : List Rat) (source : G) :
    Draws (⟨ds, source⟩ : Script G) (ds.map .unit) ⟨[], source⟩ := by
  induction ds with
  | nil => exact .nil
  | cons d ds ih => exact .consUnit rfl ih

/-! ## Sources with a record -/

/-- A source with a record of the draws that have been made from it. -/
structure Recorded (G : Type) where
  source : G
  /-- The draws, first one first. -/
  record : List Draw

namespace Recorded

variable {G : Type} [RandomSource G]

/-- Draws a number of the unit interval and puts it on record. -/
def unit (g : Recorded G) : Rat × Recorded G :=
  let (d, source) := RandomSource.unit g.source
  (d, ⟨source, g.record ++ [.unit d]⟩)

/-- Draws a number below a bound and puts it on record. -/
def below (bound : Nat) (h : 0 < bound) (g : Recorded G) : Fin bound × Recorded G :=
  let (i, source) := RandomSource.below bound h g.source
  (i, ⟨source, g.record ++ [.below bound i]⟩)

instance : RandomSource (Recorded G) := ⟨unit, below⟩

end Recorded

/-- The record of a source grows by the draws that are made. -/
theorem Draws.record_eq {G : Type} [RandomSource G] {g g' : Recorded G} {draws : List Draw}
    (h : Draws g draws g') : g'.record = g.record ++ draws := by
  induction h with
  | nil => rw [List.append_nil]
  | consUnit h _ ih =>
    cases h
    rw [ih]
    simp
  | consBelow hbound h _ ih =>
    cases h
    rw [ih]
    simp

end StackBreeder
