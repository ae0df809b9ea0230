/-!
# Sources of random draws

Breeding draws two kinds of numbers: numbers of the unit interval, and natural numbers below a
bound. A `RandomSource` gives both and the source after the draw. Draws of the unit interval are
exact rationals, so that comparing one with a rate has no rounding.

A computation with draws is a `StateM` over its source; one that can fail puts `ExceptT` around it,
so that draws made before a failure stay made.
-/

namespace StackBreeder

/-- A type of sources of random draws. -/
class RandomSource (G : Type) where
  /-- Draws a number of the unit interval. -/
  unit : G → Rat × G
  /-- Draws a number below a positive bound. -/
  below : (bound : Nat) → 0 < bound → G → Fin bound × G

variable {G : Type} [RandomSource G]

/-- Draws a number of the unit interval. -/
def drawUnit : StateM G Rat := fun g => RandomSource.unit g

/-- Draws a number below a positive bound. -/
def drawBelow (bound : Nat) (h : 0 < bound) : StateM G (Fin bound) :=
  fun g => RandomSource.below bound h g

/-- The results of an action done a number of times, in order. -/
def times {m : Type → Type} [Monad m] {α : Type} (n : Nat) (act : m α) : m (List α) :=
  (List.replicate n act).mapM id

/-- No results of an action not done. -/
@[simp] theorem times_zero {m : Type → Type} [Monad m] {α : Type} (act : m α) :
    times 0 act = pure [] := rfl

/-- The first result of an action done more than once comes first. -/
theorem times_succ {m : Type → Type} [Monad m] [LawfulMonad m] {α : Type} (n : Nat) (act : m α) :
    times (n + 1) act = (do let x ← act; let xs ← times n act; pure (x :: xs)) := by
  simp [times, List.replicate_succ]

end StackBreeder
