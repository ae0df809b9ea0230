import Mathlib.Data.List.Basic
import StackBreeder.Machine.Instruction

/-!
# Applying functions to operands

`State.apply` pops one operand for every container of a list and stops when a container runs dry.
What it has popped by then does not matter: either every container holds as many elements as the
list asks it for, or the state stays as it is and the function is not called (`apply_exchanges`).

If there are enough, then each container loses as many elements from its top as it is listed
(`State.without`), an occurrence in the list stands for the element that follows those of the
occurrences before it (`State.Supplies`), and the function is called once, on all of these, the
last one first.

A function of a pure program leaves no trace of its calls. `State.applyM` is the application of a
function with effects, from which the calls can be read off: the effects of an application are
those of one call, or none.
-/

namespace StackBreeder

namespace State

/-! ## Operands -/

/-- Operands as a list of containers asks for them: each is an element of its container, the next
one from the top behind those for the same container before it in the list. -/
def Supplies (s : State) (args : List Stack) (operands : List Value) : Prop :=
  operands.length = args.length ∧ ∀ i k, args[i]? = some k →
    ∃ x, (s.contents k)[(args.take i).count k]? = some x ∧ operands[i]? = some (k.toValue x)

/-- What is left when every container has lost as many elements from its top as it is listed. The
top of the inputs is at the end. -/
def without (s : State) (args : List Stack) : State where
  exec := s.exec.drop (args.count .exec)
  integer := s.integer.drop (args.count .integer)
  string := s.string.drop (args.count .string)
  inputs := s.inputs.take (s.inputs.length - args.count .input)

section
variable {s t : State} {k : Stack} {args : List Stack} {operands : List Value}

@[simp] theorem without_nil (s : State) : s.without [] = s := by
  simp [without]

/-- What is popped first is lost with what is popped after it. -/
theorem without_pop (s : State) (k : Stack) (args : List Stack) :
    (s.pop k).without args = s.without (k :: args) := by
  cases k with
  | exec | integer | string => simp [pop, without]
  | input =>
    have hinputs : s.inputs.dropLast.take (s.inputs.dropLast.length - args.count .input) =
        s.inputs.take (s.inputs.length - (args.count .input + 1)) := by
      rw [List.length_dropLast, List.dropLast_eq_take, List.take_take]
      congr 1
      omega
    simp [pop, without, ← hinputs]

/-- Every container shows what is left of it. -/
theorem contents_without (s : State) (args : List Stack) (k : Stack) :
    (s.without args).contents k = (s.contents k).drop (args.count k) := by
  cases k with
  | exec | integer | string => rfl
  | input => simp only [contents, without, List.drop_reverse, List.length_map, List.map_take]

theorem contents_pop_eq_drop (s : State) (k l : Stack) :
    (s.pop k).contents l = (s.contents l).drop ([k].count l) := by
  rw [← contents_without, ← without_pop, without_nil]

theorem depth_pop (s : State) (k l : Stack) : (s.pop k).depth l = s.depth l - [k].count l := by
  rw [depth, contents_pop_eq_drop, List.length_drop, depth]

/-- A container with a top holds an element. -/
theorem count_le_depth {x : k.Elem} (hx : s.top? k = some x) (l : Stack) :
    [k].count l ≤ s.depth l := by
  rw [List.count_singleton]
  split
  · next heq =>
    obtain rfl := beq_iff_eq.1 heq
    obtain ⟨rest, hrest⟩ := List.head?_eq_some_iff.1 hx
    simp [depth, hrest]
  · exact Nat.zero_le _

/-- With one more container in front a list asks for its top first. -/
theorem Supplies.cons {x : k.Elem} (hx : s.top? k = some x) (h : (s.pop k).Supplies args operands) :
    s.Supplies (k :: args) (k.toValue x :: operands) := by
  obtain ⟨hlength, h⟩ := h
  refine ⟨congrArg (· + 1) hlength, fun i l hl => ?_⟩
  cases i with
  | zero =>
    obtain rfl : k = l := by simpa using hl
    exact ⟨x, by rwa [top?, List.head?_eq_getElem?] at hx, rfl⟩
  | succ i =>
    obtain ⟨y, hy, hoperand⟩ := h i l hl
    rw [contents_pop_eq_drop, List.getElem?_drop, ← List.count_append] at hy
    exact ⟨y, hy, hoperand⟩

/-- With enough elements everywhere, operands are popped for the whole list. -/
theorem exists_popAll?_eq (h : ∀ k, args.count k ≤ s.depth k) :
    ∃ operands, s.Supplies args operands ∧ s.popAll? args = some (operands, s.without args) := by
  induction args generalizing s with
  | nil => exact ⟨[], ⟨rfl, nofun⟩, by rw [popAll?, without_nil]⟩
  | cons k args ih =>
    have hcount (l : Stack) : [k].count l + args.count l ≤ s.depth l := by
      rw [← List.count_append]
      exact h l
    obtain ⟨x, hx⟩ : ∃ x, s.top? k = some x := by
      have hk := hcount k
      rw [List.count_singleton_self, depth] at hk
      rw [top?, ← Option.isSome_iff_exists, List.isSome_head?]
      exact List.ne_nil_of_length_pos (by omega)
    obtain ⟨operands, hoperands, hpop⟩ := ih (s := s.pop k) fun l => by
      have hl := hcount l
      rw [depth_pop]
      omega
    refine ⟨_, hoperands.cons hx, ?_⟩
    simp only [popAll?, hx, hpop, Option.map_some, without_pop]

/-- With too few elements somewhere, the pops come to an end before the list does. -/
theorem popAll?_eq_none (h : s.depth k < args.count k) : s.popAll? args = none := by
  induction args generalizing s with
  | nil => exact absurd h (Nat.not_lt_zero _)
  | cons l args ih =>
    cases hx : s.top? l with
    | none => simp only [popAll?, hx]
    | some x =>
      have hcount := count_le_depth hx k
      rw [← List.singleton_append, List.count_append] at h
      have hrest : (s.pop l).popAll? args = none := ih (by rw [depth_pop]; omega)
      simp only [popAll?, hx, hrest, Option.map_none]

end

/-! ## Applications -/

/-- The state in which containers have lost operands and one has got a result on top. On the inputs
this is a binding to the number that follows those of the inputs that are left. -/
structure Exchanges (s : State) (args : List Stack) (out : Stack) (x : out.Elem) (t : State) :
    Prop where
  contents_of_ne : ∀ k, k ≠ out → t.contents k = (s.contents k).drop (args.count k)
  contents_out : t.contents out = x :: (s.contents out).drop (args.count out)
  inputs_eq : t.inputs = s.inputs.take (s.inputs.length - args.count .input) ++
    if out = .input then
      [(inputName (s.inputs.length - args.count .input + 1), out.toValue x)]
    else []

/-- A result that is pushed on what the operands leave replaces them. -/
theorem exchanges_push (s : State) (args : List Stack) (out : Stack) (x : out.Elem) :
    s.Exchanges args out x ((s.without args).push out x) where
  contents_of_ne k hk := by rw [contents_push_of_ne _ hk, contents_without]
  contents_out := by rw [contents_push, contents_without]
  inputs_eq := by
    cases out with
    | exec | integer | string => simp [push, without]
    | input => simp [push, bind, without, Stack.toValue]

section
variable {m : Type → Type} [Monad m]

/-- The application of a function with effects to operands, which replaces them by its result. If a
container runs dry the state stays as it is. -/
def applyM (s : State) (args : List Stack) (out : Stack) (fn : List Value → m out.Elem) : m State :=
  match s.popAll? args with
  | none => pure s
  | some (operands, rest) => do
    let x ← fn operands.reverse
    pure (rest.push out x)

end

/-- Without effects this is the application of a function. -/
theorem run_applyM (s : State) (args : List Stack) (out : Stack) (fn : List Value → out.Elem) :
    Id.run (s.applyM args out fun operands => pure (fn operands)) = s.apply args out fn := by
  rw [applyM, apply]
  cases s.popAll? args with
  | none => rfl
  | some => rfl

end State

/-- If a list asks a container for more elements than it holds, then the application of a function
leaves the state as it is and has no effects. Otherwise, whatever the function is, it is called once
with the operands that the list asks for, the last one first; they are taken off their containers,
the result is put on its own one, and nothing else changes. -/
theorem apply_exchanges (s : State) (args : List Stack) (out : Stack) :
    ((∃ k, s.depth k < args.count k) →
      (∀ fn, s.apply args out fn = s) ∧
      ∀ (m : Type → Type) [Monad m] (fn : List Value → m out.Elem),
        s.applyM args out fn = pure s) ∧
    ((∀ k, args.count k ≤ s.depth k) →
      ∃ operands, s.Supplies args operands.reverse ∧
        (∀ fn, s.Exchanges args out (fn operands) (s.apply args out fn)) ∧
        ∀ (m : Type → Type) [Monad m] (fn : List Value → m out.Elem),
          s.applyM args out fn = do
            let x ← fn operands
            pure (s.apply args out fun _ => x)) := by
  constructor
  · rintro ⟨k, hk⟩
    have heffects (m : Type → Type) [Monad m] (fn : List Value → m out.Elem) :
        s.applyM args out fn = pure s := by
      rw [State.applyM, State.popAll?_eq_none hk]
    exact ⟨fun fn => by rw [← State.run_applyM, heffects, Id.run_pure], heffects⟩
  · intro h
    obtain ⟨operands, hoperands, hpop⟩ := State.exists_popAll?_eq h
    have happly (fn : List Value → out.Elem) :
        s.apply args out fn = (s.without args).push out (fn operands.reverse) := by
      rw [State.apply, hpop]
    refine ⟨operands.reverse, by rwa [List.reverse_reverse], fun fn => ?_, fun m _ fn => ?_⟩
    · rw [happly]
      exact s.exchanges_push args out _
    · simp only [State.applyM, hpop, happly]

/-- With one integer nothing is added to anything. With enough operands, two integers, the latest
input and a text are put into a block, which is bound in place of the input. -/
theorem apply_exchanges_mixed :
    (∃ k, State.depth { integer := [4] } k < [Stack.integer, .integer].count k) ∧
    State.apply { integer := [4] } [.integer, .integer] .exec .block = { integer := [4] } ∧
    (∀ k, [Stack.integer, .input, .string, .integer].count k ≤
      State.depth { integer := [3, 2, 1], string := ["a"], inputs := [("in1", .int 7),
        ("in2", .text "b")] } k) ∧
    State.Exchanges { integer := [3, 2, 1], string := ["a"], inputs := [("in1", .int 7),
        ("in2", .text "b")] } [.integer, .input, .string, .integer] .input
      (.block [.int 2, .text "a", .text "b", .int 3])
      { integer := [1], inputs := [("in1", .int 7),
        ("in2", .block [.int 2, .text "a", .text "b", .int 3])] } := by
  have hshort : ∃ k, State.depth { integer := [4] } k < [Stack.integer, .integer].count k :=
    ⟨.integer, by decide⟩
  have henough : ∀ k, [Stack.integer, .input, .string, .integer].count k ≤
      State.depth { integer := [3, 2, 1], string := ["a"], inputs := [("in1", .int 7),
        ("in2", .text "b")] } k := by
    intro k
    cases k <;> decide
  refine ⟨hshort, ((apply_exchanges _ _ .exec).1 hshort).1 _, henough, ?_⟩
  obtain ⟨operands, -, happly, -⟩ := (apply_exchanges _ _ .input).2 henough
  have hresult : State.apply { integer := [3, 2, 1], string := ["a"], inputs := [("in1", .int 7),
        ("in2", .text "b")] } [.integer, .input, .string, .integer] .input .block =
      { integer := [1], inputs := [("in1", .int 7),
        ("in2", .block [.int 2, .text "a", .text "b", .int 3])] } := by decide
  have hexchanges := happly .block
  rw [hresult] at hexchanges
  obtain rfl : operands = [.int 2, .text "a", .text "b", .int 3] := by
    simpa [State.contents] using hexchanges.contents_out.symm
  exact hexchanges

end StackBreeder
