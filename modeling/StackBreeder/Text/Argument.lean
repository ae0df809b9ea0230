import StackBreeder.Text.Blank
import StackBreeder.Text.Integer

/-!
# Integers as arguments

An integer that is given on a command line may have blanks around it, a sign, and single underscores
between its digits. Blanks are those of `isBlank`, but for the four separators U+001C to U+001F.
-/

namespace StackBreeder.Text

/-- A character that may stand around an integer. -/
def isPadding (c : Char) : Bool := isBlank c && !(0x1C ≤ c.toNat && c.toNat ≤ 0x1F)

/-- A list without the characters at its two ends that satisfy a test. -/
def trim (test : Char → Bool) (cs : List Char) : List Char :=
  ((cs.dropWhile test).reverse.dropWhile test).reverse

/-- Whether every underscore stands between two other characters. -/
def isGrouped (cs : List Char) : Bool :=
  cs.head? != some '_' && cs.getLast? != some '_' &&
    (cs.zip cs.tail).all fun (a, b) => !(a = '_' && b = '_')

/-- The integer that an argument writes. -/
def integer? (cs : List Char) : Option Int :=
  let (negative, body) := unsign (trim isPadding cs)
  if body.isEmpty || !isGrouped body then none
  else (natural? (body.filter (· ≠ '_'))).map (signed negative)

end StackBreeder.Text
