import StackBreeder.Program.Value
import StackBreeder.Random.Source

/-!
# Crossover

Uniform crossover recombines two programs position by position. Where both have an item, the child
takes one of the two with equal odds. What the longer parent has beyond the end of the shorter one
is kept item by item, each with even odds. There is one draw for each item of the longer parent
(`crossover`), and the draws alone decide the child (`recombine`).
-/

namespace StackBreeder

/-- Draws below one half decide for the first parent, or for keeping an item. -/
def favours (d : Rat) : Bool := d < 1 / 2

/-- The items whose draws decide for them. -/
def keepFavoured : List Rat → Program → Program
  | d :: ds, item :: items =>
    if favours d then item :: keepFavoured ds items else keepFavoured ds items
  | _, _ => []

/-- The child of two programs under given draws, one for each item of the longer parent. -/
def recombine : List Rat → Program → Program → Program
  | d :: ds, a :: as, b :: bs => (if favours d then a else b) :: recombine ds as bs
  | ds, as, [] => keepFavoured ds as
  | ds, [], bs => keepFavoured ds bs
  | [], _ :: _, _ :: _ => []

variable {G : Type} [RandomSource G]

/-- Draws the child of two programs. -/
def crossover (a b : Program) : StateM G Program := do
  let draws ← times (max a.length b.length) drawUnit
  pure (recombine draws a b)

end StackBreeder
