import StackBreeder.Random.Source

/-!
# Scripted draws

A source whose numbers of the unit interval are given in advance, for as long as they last; after
that they come from another source. Numbers below a bound always come from that other source, and
a scripted draw leaves it as it is.
-/

namespace StackBreeder

/-- A source with draws given in advance. -/
structure Script (G : Type) where
  /-- The numbers of the unit interval still to be given out, next one first. -/
  queue : List Rat
  /-- Where all other draws come from. -/
  source : G

namespace Script

variable {G : Type} [RandomSource G]

/-- Draws a number of the unit interval: the next one of the queue, if there is one. -/
def unit : Script G → Rat × Script G
  | ⟨d :: queue, source⟩ => (d, ⟨queue, source⟩)
  | ⟨[], source⟩ =>
    let (d, source) := RandomSource.unit source
    (d, ⟨[], source⟩)

/-- Draws a number below a bound from the other source. -/
def below (bound : Nat) (h : 0 < bound) : Script G → Fin bound × Script G
  | ⟨queue, source⟩ =>
    let (n, source) := RandomSource.below bound h source
    (n, ⟨queue, source⟩)

instance : RandomSource (Script G) := ⟨unit, below⟩

end Script

end StackBreeder
