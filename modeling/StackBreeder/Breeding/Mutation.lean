import StackBreeder.Breeding.Palette

/-!
# Mutation

Uniform addition may put an item of the palette before each item of a program and at its end, each
time with the chance that the rate gives. Uniform deletion may drop each item, again with the chance
that the rate gives; its draws alone decide what is left (`retain`).
-/

namespace StackBreeder

/-- The chance of an addition or a deletion when nothing else is said: the double nearest to five
hundredths. -/
def defaultRate : Rat := mkRat 3602879701896397 72057594037927936

/-- The items whose draws are not below the rate. -/
def retain (rate : Rat) : List Rat → Program → Program
  | d :: ds, item :: items =>
    if d < rate then retain rate ds items else item :: retain rate ds items
  | _, _ => []

variable {G : Type} [RandomSource G]

/-- An item of the palette with the chance that the rate gives, and otherwise nothing. -/
def insertion (palette : Palette) (rate : Rat) : Breeding G Program := do
  let d ← (drawUnit : StateM G Rat)
  if d < rate then
    let item ← palette.draw
    pure [item]
  else pure []

/-- Adds items of the palette to a program. -/
def addition (palette : Palette) (rate : Rat) (p : Program) : Breeding G Program := do
  let parts ← p.mapM fun item => do
    let added ← insertion palette rate
    pure (added ++ [item])
  let last ← insertion palette rate
  pure (parts.flatten ++ last)

/-- Drops items of a program. -/
def deletion (rate : Rat) (p : Program) : StateM G Program := do
  let draws ← times p.length drawUnit
  pure (retain rate draws p)

end StackBreeder
