/-!
# Values and programs

A program of the stack language is a list of values: integers, texts, symbols and blocks, a block
being again a list of values. Everything the machine moves between its stacks is a value, and code
is data: a program runs by being placed on the execution stack.

Equality of values is decidable (`Value.decEq`); the instance is written out because a value holds
lists of values.
-/

namespace StackBreeder

/-- What a program is made of. -/
inductive Value where
  /-- An integer of any size. -/
  | int (n : Int)
  /-- A string literal. -/
  | text (content : String)
  /-- The name of an instruction, or a name that no instruction answers to. -/
  | sym (name : String)
  /-- Values grouped in parentheses; a block runs item by item. -/
  | block (items : List Value)
  deriving Inhabited, Repr

/-- The items of a program, in the order in which they run. -/
abbrev Program := List Value

mutual

/-- Two values are equal when they are of one kind and hold equal contents. -/
def Value.decEq : (v w : Value) → Decidable (v = w)
  | .int m, .int n => decidable_of_iff (m = n) (by simp)
  | .text s, .text t => decidable_of_iff (s = t) (by simp)
  | .sym s, .sym t => decidable_of_iff (s = t) (by simp)
  | .block vs, .block ws =>
    match Value.decEqItems vs ws with
    | isTrue h => isTrue (by rw [h])
    | isFalse h => isFalse (by simpa using h)
  | .int _, .text _ | .int _, .sym _ | .int _, .block _ => isFalse (by simp)
  | .text _, .int _ | .text _, .sym _ | .text _, .block _ => isFalse (by simp)
  | .sym _, .int _ | .sym _, .text _ | .sym _, .block _ => isFalse (by simp)
  | .block _, .int _ | .block _, .text _ | .block _, .sym _ => isFalse (by simp)

/-- `Value.decEq` on lists of values, item by item. -/
def Value.decEqItems : (vs ws : List Value) → Decidable (vs = ws)
  | [], [] => isTrue rfl
  | [], _ :: _ | _ :: _, [] => isFalse (by simp)
  | v :: vs, w :: ws =>
    match Value.decEq v w, Value.decEqItems vs ws with
    | isTrue h, isTrue hs => isTrue (by rw [h, hs])
    | isFalse h, _ => isFalse (by simp [h])
    | _, isFalse hs => isFalse (by simp [hs])

end

instance : DecidableEq Value := Value.decEq

/-- The four kinds of values. -/
inductive Value.Kind where
  | int
  | text
  | sym
  | block
  deriving DecidableEq, Repr

/-- The kind of a value. -/
def Value.kind : Value → Value.Kind
  | .int _ => .int
  | .text _ => .text
  | .sym _ => .sym
  | .block _ => .block

/-- The name of a kind, as answers about programs show it. -/
def Value.Kind.label : Value.Kind → String
  | .int => "INT"
  | .text => "TEXT"
  | .sym => "SYM"
  | .block => "BLOCK"

end StackBreeder
