/-!
# Doubles as exact numbers

A double is decoded from its 64 bits: a sign, 11 bits of exponent and 52 bits of fraction. A finite
one is exactly its sign times a natural number times a power of two.
-/

namespace StackBreeder

/-- What the bits of a double stand for. -/
inductive Binary64 where
  /-- The number `mantissa * 2 ^ exponent` with a sign; zero has a sign, too. -/
  | finite (negative : Bool) (mantissa : Nat) (exponent : Int)
  | infinite (negative : Bool)
  | notANumber
  deriving DecidableEq, Repr

namespace Binary64

/-- Decodes 64 bits. Exponent zero marks the numbers without a leading bit, and the largest one
marks what is not finite. -/
def ofBits (bits : Nat) : Binary64 :=
  let negative := bits.testBit 63
  let exponent := (bits >>> 52) % 2048
  let fraction := bits % (1 <<< 52)
  if exponent = 2047 then if fraction = 0 then infinite negative else notANumber
  else if exponent = 0 then finite negative fraction (-1074)
  else finite negative ((1 <<< 52) + fraction) ((exponent : Int) - 1075)

/-- Decodes a float. -/
def ofFloat (x : Float) : Binary64 := ofBits x.toBits.toNat

/-- The exact value of a finite double. -/
def toRat? : Binary64 → Option Rat
  | finite negative mantissa exponent =>
    let numerator := mantissa <<< exponent.toNat
    some (mkRat (if negative then -(numerator : Int) else numerator) (1 <<< (-exponent).toNat))
  | _ => none

end Binary64

end StackBreeder
