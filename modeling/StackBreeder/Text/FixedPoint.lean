import StackBreeder.Number.Binary64
import StackBreeder.Text.Layout

/-!
# Numbers with a fixed number of places

A double is written with a fixed number of decimal places. The exact value is rounded to the nearest
number with so many places, and of two equally near ones to the even one (`roundHalfEven`). Negative
zero, and what rounds to it, keeps its sign.
-/

namespace StackBreeder.Text

/-- The natural number nearest to a quotient; of two equally near ones the even one. -/
def roundHalfEven (numerator denominator : Nat) : Nat :=
  let q := numerator / denominator
  let r := numerator % denominator
  if 2 * r < denominator ∨ (2 * r = denominator ∧ q % 2 = 0) then q else q + 1

/-- Twice the distance from a quotient to its rounded value is at most one. -/
theorem roundHalfEven_near (numerator : Nat) {denominator : Nat} (h : 0 < denominator) :
    2 * numerator ≤ 2 * (roundHalfEven numerator denominator * denominator) + denominator ∧
      2 * (roundHalfEven numerator denominator * denominator) ≤ 2 * numerator + denominator := by
  have hq := Nat.div_add_mod numerator denominator
  have hr := Nat.mod_lt numerator h
  rw [Nat.mul_comm] at hq
  simp only [roundHalfEven]
  split
  · omega
  · rw [Nat.add_mul, Nat.one_mul]; omega

/-- The written form of `mantissa * 2 ^ exponent` with the given number of places. -/
def fixedMagnitude (places mantissa : Nat) (exponent : Int) : List Char :=
  let scale := Nat.pow 10 places
  let units := roundHalfEven ((mantissa * scale) <<< exponent.toNat) (1 <<< (-exponent).toNat)
  let whole := Nat.toDigits 10 (units / scale)
  whole ++ '.' :: padLeft '0' places (Nat.toDigits 10 (units % scale))

/-- The written form of a double with the given number of places. -/
def fixed (places : Nat) (x : Float) : String :=
  match Binary64.ofFloat x with
  | .finite negative mantissa exponent =>
    let magnitude := fixedMagnitude places mantissa exponent
    String.ofList (if negative then '-' :: magnitude else magnitude)
  | .infinite negative => if negative then "-inf" else "inf"
  | .notANumber => "nan"

end StackBreeder.Text
