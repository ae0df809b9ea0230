import Mathlib.Algebra.Order.Ring.Abs
import Mathlib.Algebra.Order.Ring.Int
import Mathlib.Logic.Function.Iterate
import StackBreeder.Machine.Run

/-!
# Protected division

A quotient toward zero can be told by what it leaves of the numerator: a remainder that is zero or
has the sign of the numerator, and is less than the denominator in magnitude (`IsTruncated`). There
is exactly one such quotient if the denominator is not zero (`isTruncated_iff`), and it can be
computed from the magnitudes alone, with a sign that says whether both operands are negative or none
is (`protectedQuotient_eq_magnitudes`).

`quotient_truncates` says what follows for the instruction `integer_%`, which finds the denominator
on top of the integer stack and the numerator below it.
-/

namespace StackBreeder

variable {a b q : Int}

/-! ## Quotients toward zero -/

/-- What `q` times `b` leaves of `a` is zero or has the sign of `a`, and is less than `b` in
magnitude. -/
structure IsTruncated (a b q : Int) : Prop where
  sign_remainder : a - q * b = 0 ∨ (a - q * b).sign = a.sign
  abs_remainder_lt : |a - q * b| < |b|

theorem isTruncated_tdiv (a : Int) (hb : b ≠ 0) : IsTruncated a b (a.tdiv b) := by
  have hremainder : a - a.tdiv b * b = a.tmod b := by rw [Int.tmod_def, Int.mul_comm]
  constructor
  · rw [hremainder, Int.sign_tmod]
    split
    · next hdvd => exact .inl (Int.tmod_eq_zero_of_dvd hdvd)
    · exact .inr rfl
  · rw [hremainder, Int.abs_eq_natAbs, Int.abs_eq_natAbs, Int.natAbs_tmod]
    exact Int.ofNat_lt.2 (Nat.mod_lt _ (Int.natAbs_pos.2 hb))

namespace IsTruncated

/-- Nothing is less than zero in magnitude. -/
theorem ne_zero (h : IsTruncated a b q) : b ≠ 0 := by
  rintro rfl
  exact absurd h.abs_remainder_lt (not_lt.2 (by simp))

/-- The remainder is on the side of zero where the numerator is. -/
theorem remainder_nonneg (h : IsTruncated a b q) (ha : 0 ≤ a) : 0 ≤ a - q * b := by
  rcases h.sign_remainder with hzero | hsign
  · exact hzero.ge
  · rwa [← Int.sign_nonneg_iff, hsign, Int.sign_nonneg_iff]

theorem remainder_nonpos (h : IsTruncated a b q) (ha : a ≤ 0) : a - q * b ≤ 0 := by
  rcases h.sign_remainder with hzero | hsign
  · exact hzero.le
  · rwa [← Int.sign_nonpos_iff, hsign, Int.sign_nonpos_iff]

/-- There is no other quotient toward zero. -/
theorem eq_tdiv (h : IsTruncated a b q) : q = a.tdiv b := by
  have hlt := h.abs_remainder_lt
  rw [Int.abs_eq_natAbs, Int.abs_eq_natAbs] at hlt
  have hsum : a - q * b + b * q = a := by rw [Int.mul_comm b]; omega
  -- With a remainder on one side of zero, division of the numerator is unique on that side.
  rcases Int.le_total 0 a with ha | ha
  · have hnonneg := h.remainder_nonneg ha
    have hunique := (Int.tdiv_tmod_unique ha h.ne_zero).2 ⟨hsum, hnonneg, by omega⟩
    exact hunique.1.symm
  · have hnonpos := h.remainder_nonpos ha
    have hunique := (Int.tdiv_tmod_unique' ha h.ne_zero).2 ⟨hsum, by omega, hnonpos⟩
    exact hunique.1.symm

end IsTruncated

/-! ## The protected quotient -/

@[simp] theorem protectedQuotient_zero (a : Int) : protectedQuotient a 0 = a := rfl

theorem protectedQuotient_of_ne_zero (a : Int) (hb : b ≠ 0) : protectedQuotient a b = a.tdiv b :=
  if_neg hb

/-- With a denominator the protected quotient is the one that truncates. -/
theorem isTruncated_iff (hb : b ≠ 0) : IsTruncated a b q ↔ q = protectedQuotient a b := by
  rw [protectedQuotient_of_ne_zero a hb]
  constructor
  · exact IsTruncated.eq_tdiv
  · rintro rfl
    exact isTruncated_tdiv a hb

/-- The magnitudes are divided, and the sign is restored: there is none if both operands are
negative, or neither is. -/
theorem protectedQuotient_eq_magnitudes (a : Int) (hb : b ≠ 0) :
    protectedQuotient a b = if a < 0 ↔ b < 0 then |a| / |b| else -(|a| / |b|) := by
  rw [protectedQuotient_of_ne_zero a hb]
  rcases lt_or_ge a 0 with ha | ha
  · -- The numerator is `-a` up to the sign.
    have hneg : a.tdiv b = -((-a).tdiv b) := by rw [Int.neg_tdiv, Int.neg_neg]
    rw [hneg, Int.tdiv_eq_ediv_of_nonneg (by omega), abs_of_neg ha]
    rcases lt_or_ge b 0 with hb | hb
    · rw [if_pos (by omega), abs_of_neg hb, Int.ediv_neg]
    · rw [if_neg (by omega), abs_of_nonneg hb]
  · rw [Int.tdiv_eq_ediv_of_nonneg ha, abs_of_nonneg ha]
    rcases lt_or_ge b 0 with hb | hb
    · rw [if_neg (by omega), abs_of_neg hb, Int.ediv_neg, Int.neg_neg]
    · rw [if_pos (by omega), abs_of_nonneg hb]

/-- No quotient exceeds its numerator. -/
theorem abs_protectedQuotient_le (a b : Int) : |protectedQuotient a b| ≤ |a| := by
  rw [protectedQuotient]
  split
  · exact le_rfl
  · rw [Int.abs_eq_natAbs, Int.abs_eq_natAbs, Int.ofNat_le]
    exact Int.natAbs_tdiv_le_natAbs a b

theorem protectedQuotient_neg_left (a : Int) (hb : b ≠ 0) :
    protectedQuotient (-a) b = -protectedQuotient a b := by
  simp only [protectedQuotient_of_ne_zero _ hb, Int.neg_tdiv]

theorem protectedQuotient_neg_right (a : Int) (hb : b ≠ 0) :
    protectedQuotient a (-b) = -protectedQuotient a b := by
  rw [protectedQuotient_of_ne_zero a hb, protectedQuotient_of_ne_zero a (neg_ne_zero.2 hb),
    Int.tdiv_neg]

/-- A product is divided without a remainder. -/
theorem protectedQuotient_mul_cancel (a : Int) (hb : b ≠ 0) : protectedQuotient (a * b) b = a := by
  rw [protectedQuotient_of_ne_zero _ hb, Int.mul_tdiv_cancel a hb]

/-! ## The instruction -/

/-- An operator replaces the two top integers and changes nothing else. -/
theorem Instruction.binary_run_of_integer {name : String} {op : Int → Int → Int} {s : State}
    {rest : List Int} (h : s.integer = b :: a :: rest) :
    (binary name op).run s = { s with integer := op a b :: rest } := by
  simp only [binary, h]

/-- Multiplication, the multiplier once more, and division give back the multiplicand. -/
theorem iterate_step_times_quotient {s : State} {rest : List Int} (h : s.integer = b :: a :: rest)
    (hb : b ≠ 0) :
    (step .standard)^[3] (s.load [.sym "integer_*", .int b, .sym "integer_%"]) =
      { s with integer := a :: rest } := by
  obtain ⟨exec, integer, string, inputs⟩ := s
  obtain rfl : integer = b :: a :: rest := h
  have hproduct : (step .standard)^[3]
      (State.load ⟨exec, b :: a :: rest, string, inputs⟩
        [.sym "integer_*", .int b, .sym "integer_%"]) =
      ⟨exec, protectedQuotient (a * b) b :: rest, string, inputs⟩ := rfl
  rw [hproduct, protectedQuotient_mul_cancel a hb]

/-- With `b` on top of `a` on the integer stack, `integer_%` leaves one integer `q` in their place,
and changes nothing else. If `b` is zero then `q` is `a`. Otherwise `q` is the only integer for which
the remainder is zero or has the sign of `a`, and is less than `b` in magnitude; it is what division
of the magnitudes gives, up to a sign; it changes its sign with either operand; and a product with
`b` is divided by `b` without a remainder. In magnitude `q` never exceeds `a`. -/
theorem quotient_truncates (s : State) (a b : Int) (rest : List Int)
    (h : s.integer = b :: a :: rest) :
    ∃ quotient q, Registry.standard.find? "integer_%" = some quotient ∧
      quotient.run s = { s with integer := q :: rest } ∧
      |q| ≤ |a| ∧
      (b = 0 → q = a) ∧
      (b ≠ 0 →
        (∀ q', IsTruncated a b q' ↔ q' = q) ∧
        q = (if a < 0 ↔ b < 0 then |a| / |b| else -(|a| / |b|)) ∧
        quotient.run { s with integer := b :: -a :: rest } = { s with integer := -q :: rest } ∧
        quotient.run { s with integer := -b :: a :: rest } = { s with integer := -q :: rest } ∧
        (step .standard)^[3] (s.load [.sym "integer_*", .int b, .sym "integer_%"]) =
          { s with integer := a :: rest }) := by
  refine ⟨.binary "integer_%" protectedQuotient, protectedQuotient a b, rfl,
    Instruction.binary_run_of_integer h, abs_protectedQuotient_le a b, ?_, fun hb => ?_⟩
  · rintro rfl
    exact protectedQuotient_zero a
  · refine ⟨fun q' => isTruncated_iff hb, protectedQuotient_eq_magnitudes a hb, ?_, ?_,
      iterate_step_times_quotient h hb⟩
    · rw [Instruction.binary_run_of_integer rfl, protectedQuotient_neg_left a hb]
    · rw [Instruction.binary_run_of_integer rfl, protectedQuotient_neg_right a hb]

/-- Seven by minus two is minus three, with one left over. -/
theorem quotient_truncates_seven :
    State.integer { exec := [.sym "x"], integer := [-2, 7, 5], string := ["y"] } = [-2, 7, 5] ∧
    IsTruncated 7 (-2) (-3) ∧
    ∃ quotient, Registry.standard.find? "integer_%" = some quotient ∧
      quotient.run { exec := [.sym "x"], integer := [-2, 7, 5], string := ["y"] } =
        { exec := [.sym "x"], integer := [-3, 5], string := ["y"] } ∧
      quotient.run { exec := [.sym "x"], integer := [-2, -7, 5], string := ["y"] } =
        { exec := [.sym "x"], integer := [3, 5], string := ["y"] } := by
  have hinteger : State.integer { exec := [.sym "x"], integer := [-2, 7, 5], string := ["y"] } =
      [-2, 7, 5] := rfl
  have htruncated : IsTruncated 7 (-2) (-3) := ⟨.inr rfl, by decide⟩
  obtain ⟨quotient, q, hfind, hrun, -, -, hnonzero⟩ := quotient_truncates _ 7 (-2) [5] hinteger
  obtain ⟨hunique, -, hneg, -⟩ := hnonzero (by decide)
  obtain rfl := (hunique (-3)).1 htruncated
  exact ⟨hinteger, htruncated, quotient, hfind, hrun, hneg⟩

end StackBreeder
