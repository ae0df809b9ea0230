import StackBreeder.Program.Value
import StackBreeder.Text.Integer

/-!
# Printing programs

The written form of a program: its items in parentheses, one space between neighbours. An integer is
written in decimal, a symbol as its name, a block like a program, and a text between double quotes,
where a backslash goes before every double quote and every backslash. Integers of any size and
blocks nested to any depth have a written form: the limits of an environment on digits and on the
depth of recursion are left out.
-/

namespace StackBreeder

/-- The characters of a text with a backslash before every backslash and every double quote. -/
def escapeLiteral (content : List Char) : List Char :=
  content.flatMap fun c => if c = '\\' ∨ c = '"' then ['\\', c] else [c]

mutual

/-- The written form of a value, of any depth and with integers of any size. -/
def Value.chars : Value → List Char
  | .int n => Text.numeral n
  | .text content => '"' :: (escapeLiteral content.toList ++ ['"'])
  | .sym name => name.toList
  | .block items => '(' :: (Value.itemChars items ++ [')'])

/-- The written forms of the items of a list, one space between neighbours. -/
def Value.itemChars : List Value → List Char
  | [] => []
  | [v] => v.chars
  | v :: w :: rest => v.chars ++ ' ' :: Value.itemChars (w :: rest)

end

/-- The written form of a value, as a text. -/
def Value.print (v : Value) : String := String.ofList v.chars

/-- The written form of a program, as a list of characters. -/
def Program.chars (p : Program) : List Char := '(' :: (Value.itemChars p ++ [')'])

/-- The written form of a program, as a text. -/
def Program.print (p : Program) : String := String.ofList (Program.chars p)

end StackBreeder
