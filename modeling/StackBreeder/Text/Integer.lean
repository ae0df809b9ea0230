import StackBreeder.Text.Digit

/-!
# Integers in decimal

Writing an integer uses the ten ASCII digits (`numeral`). Reading takes decimal digits of any script
(`natural?`), after at most one sign (`unsign`). Reading a written natural number gives it back
(`natural?_toDigits`).

Writing and reading have no limit here. Where the environment sets a limit on the digits of a
number, `isWritable` says which integers are within it; a log is kept to it, programs and their
texts are not.
-/

namespace StackBreeder.Text

/-- The decimal numeral of an integer: no leading zeros, and a `-` before a negative one. Every
integer has one, however many digits it takes: the limit of `isWritable` is left out. -/
def numeral : Int → List Char
  | .ofNat n => Nat.toDigits 10 n
  | .negSucc n => '-' :: Nat.toDigits 10 (n + 1)

/-- How many digits a number may have in an environment that limits them. -/
def maxDigits : Nat := 4300

/-- Whether an integer has no more digits than the environment lets be written. -/
def isWritable (n : Int) : Bool := n.natAbs < Nat.pow 10 maxDigits

/-- One more digit at the end of a number; nothing once a character is no decimal digit. -/
def appendDigit? (n : Nat) (c : Char) : Option Nat := (decimal? c).map (10 * n + ·)

/-- The number that decimal digits write, most significant first; no digits write zero. There may be
any number of digits: the limit that an environment sets is left out. -/
def natural? (cs : List Char) : Option Nat := cs.foldlM appendDigit? 0

/-- Whether a word starts with `-`, and what follows its sign, if it has one. -/
def unsign : List Char → Bool × List Char
  | '-' :: cs => (true, cs)
  | '+' :: cs => (false, cs)
  | cs => (false, cs)

/-- The integer of a sign and a magnitude. -/
def signed (negative : Bool) (n : Nat) : Int := if negative then -n else n

/-- Reading a number digit by digit may be cut anywhere before its last digit. -/
theorem natural?_concat (cs : List Char) (c : Char) :
    natural? (cs ++ [c]) = (natural? cs).bind (appendDigit? · c) := by
  simp [natural?, List.foldlM_append]

/-- The character of a digit below ten is the decimal digit of that value. -/
theorem decimal?_digitChar {d : Nat} (h : d < 10) : decimal? d.digitChar = some d := by
  have all : ∀ d : Fin 10, decimal? (d : Nat).digitChar = some (d : Nat) := by decide
  exact all ⟨d, h⟩

/-- A written natural number reads back. -/
theorem natural?_toDigits (n : Nat) : natural? (Nat.toDigits 10 n) = some n := by
  induction n using Nat.strongRecOn with
  | _ n ih =>
    rw [Nat.toDigits_eq_if (by decide)]
    split
    · next h => simp [natural?, appendDigit?, decimal?_digitChar h]
    · next h =>
      rw [natural?_concat, ih (n / 10) (by omega), Option.bind_some, appendDigit?,
        decimal?_digitChar (Nat.mod_lt _ (by decide)), Option.map_some, Nat.div_add_mod]

end StackBreeder.Text
