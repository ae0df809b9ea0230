import StackBreeder.Breeding.Error
import StackBreeder.Machine.Registry
import StackBreeder.Random.Source

/-!
# Palettes and random programs

A palette lists the values that programs are made from, each as likely as the others; a value that
is listed twice is twice as likely. A random program has a random size up to a limit and items of
the palette.
-/

namespace StackBreeder

/-- The values that programs are made from. -/
abbrev Palette := List Value

namespace Palette

/-- The first input, the operators, zero and one. -/
def default : Palette :=
  [.sym "in1", .sym "integer_+", .sym "integer_-", .sym "integer_*", .sym "integer_%",
   .int 0, .int 1]

/-- Why a palette cannot be used. -/
inductive Error where
  | empty
  /-- The symbol at this index is the name of no instruction. -/
  | unknown (index : Nat) (name : String)
  deriving DecidableEq, Repr

/-- The text of a palette error. -/
def Error.message : Error → String
  | .empty => "instruction palette must not be empty"
  | .unknown index name =>
    "palette[" ++ toString index ++ "]: unknown instruction: " ++ name

/-- The first symbol of a palette that is the name of no instruction, with its index counted from
`index`. Symbols inside blocks are not looked at. -/
def firstUnknown? (reg : Registry) (index : Nat) : Palette → Option (Nat × String)
  | [] => none
  | .sym name :: rest =>
    if reg.contains name then firstUnknown? reg (index + 1) rest else some (index, name)
  | _ :: rest => firstUnknown? reg (index + 1) rest

/-- Refuses a palette that is empty or has a symbol that is the name of no instruction. -/
def check (reg : Registry) (palette : Palette) : Except Error Unit :=
  if palette.isEmpty then .error .empty
  else
    match palette.firstUnknown? reg 0 with
    | some (index, name) => .error (.unknown index name)
    | none => .ok ()

variable {G : Type} [RandomSource G]

/-- Draws an item. -/
def draw (palette : Palette) : Breeding G Value :=
  if h : 0 < palette.length then do
    let i ← (drawBelow palette.length h : StateM G _)
    pure palette[i]
  else throw .nothingToDraw

/-- Draws a program: first its size, from one up to the limit, and then its items. -/
def drawProgram (palette : Palette) (maxSize : Int) : Breeding G Program := do
  if palette.isEmpty then throw .emptyPalette
  if h : 0 < maxSize.toNat then
    let i ← (drawBelow maxSize.toNat h : StateM G _)
    times (i + 1) palette.draw
  else throw .noSize

end Palette

end StackBreeder
