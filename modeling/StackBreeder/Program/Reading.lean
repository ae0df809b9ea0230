import StackBreeder.Program.Token
import StackBreeder.Program.Value
import StackBreeder.Text.Integer

/-!
# Reading programs

A program is written as one parenthesized list. `Program.read` first cuts the text into tokens and
then builds the list, so a string literal without end is reported before anything else. An atom is
an integer when it is made of digits after at most one sign, and otherwise a symbol.

The builder (`Program.build`) keeps the lists that are still open, innermost first. It starts
inside the outermost list, so it never meets a closing parenthesis, or a value, outside of it.
-/

namespace StackBreeder

/-- Why a text is not a program. -/
inductive ReadError where
  /-- Nothing closes the double quote at this offset. -/
  | unterminated (offset : Nat)
  /-- The text does not start with an opening parenthesis. -/
  | noOpening
  /-- An atom is made of digits, but numbers are not written with one of them. -/
  | notDecimal (atom : List Char)
  /-- The token at this position follows the end of the program. -/
  | trailing (position : Nat)
  /-- A list is still open at the end of the text. -/
  | unclosed
  deriving DecidableEq, Repr

/-- An atom in single quotes as it is shown in a message: no more than 200 characters, of which the
opening quote is one. -/
def quoteAtom (atom : List Char) : String :=
  String.ofList (("'".toList ++ atom ++ "'".toList).take 200)

/-- The text of a reading error. -/
def ReadError.message : ReadError → String
  | .unterminated offset => "unterminated string literal at offset " ++ toString offset
  | .noOpening => "program must start with '('"
  | .notDecimal atom => "invalid literal for int() with base 10: " ++ quoteAtom atom
  | .trailing position => "trailing tokens after program at token " ++ toString position
  | .unclosed => "unbalanced '(' in program"

/-- The value that an atom writes. -/
def Value.ofAtom (atom : List Char) : Except ReadError Value :=
  let (negative, body) := Text.unsign atom
  if body.isEmpty || !body.all Text.isDigit then
    .ok (.sym (String.ofList atom))
  else
    match Text.natural? body with
    | some n => .ok (.int (Text.signed negative n))
    | none => .error (.notDecimal atom)

namespace Program

/-- Builds a program from the tokens after its opening parenthesis. `outer` holds the items so far
of the lists around the innermost open one, and `items` those of that list, all latest first;
`position` counts the tokens taken. -/
def build (outer : List (List Value)) (items : List Value) (position : Nat) :
    List Token → Except ReadError Program
  | [] => .error .unclosed
  | .opening :: rest => build (items :: outer) [] (position + 1) rest
  | .closing :: rest =>
    match outer with
    | [] => if rest.isEmpty then .ok items.reverse else .error (.trailing (position + 1))
    | enclosing :: outer => build outer (.block items.reverse :: enclosing) (position + 1) rest
  | .literal content :: rest =>
    build outer (.text (String.ofList content) :: items) (position + 1) rest
  | .atom chars :: rest =>
    match Value.ofAtom chars with
    | .ok value => build outer (value :: items) (position + 1) rest
    | .error e => .error e

/-- The program that a list of tokens writes. -/
def ofTokens : List Token → Except ReadError Program
  | .opening :: rest => build [] [] 1 rest
  | _ => .error .noOpening

/-- The program that a list of characters writes. -/
def ofChars (src : List Char) : Except ReadError Program :=
  match Token.scan src with
  | .ok tokens => ofTokens tokens
  | .error offset => .error (.unterminated offset)

/-- The program that a text writes. -/
def read (src : String) : Except ReadError Program := ofChars src.toList

end Program

end StackBreeder
