import StackBreeder.Proofs.Machine.Application
import StackBreeder.Proofs.Machine.Binding

/-!
# Operations on a state

An `Operation` is what can be done to a state from outside: pushes and pops, bindings, loading of
code, applications of functions to operands, steps and runs. Each of them changes only the end of
the list of values that are bound (`Operation.bound_perform`). Operations that start from the empty
state keep the inputs numbered (`State.IsNumbered`): what is bound gets the number that follows. So
each number is the name of the input at its place, however often inputs have been taken off and
bound again (`performAll_hasOrdinalNames`), and the name of the next number is never in use
(`State.IsNumbered.gains_bind`).
-/

namespace StackBreeder

/-- What can be done to the state of a machine. -/
inductive Operation where
  | push (k : Stack) (x : k.Elem)
  | pop (k : Stack)
  | bind (v : Value)
  | load (p : Program)
  /-- Operands from the containers of the list are replaced by the result of a function. -/
  | apply (args : List Stack) (out : Stack) (fn : List Value → out.Elem)
  | step (d : Dialect)
  | run (d : Dialect) (fuel : Int)

namespace Operation

/-- The state after an operation. -/
def perform : Operation → State → State
  | push k x, s => s.push k x
  | pop k, s => s.pop k
  | bind v, s => s.bind v
  | load p, s => s.load p
  | apply args out fn, s => s.apply args out fn
  | step d, s => StackBreeder.step d.registry s
  | run d fuel, s => (StackBreeder.run d.registry fuel s).1

/-- The state after operations, one after the other. -/
def performAll (os : List Operation) (s : State) : State := os.foldl (fun s o => o.perform s) s

end Operation

/-! ## The values that are bound -/

/-- The values that are bound, in the order in which they were. -/
def State.bound (s : State) : List Value := s.inputs.map (·.2)

/-- The values that are bound after an operation. A binding adds a value at the end, and a pop takes
off the last one. An application that has its operands takes off those that are inputs, and adds its
result if this is to be an input. -/
def Operation.boundAfter (s : State) : Operation → List Value
  | .bind v | .push .input v => s.bound ++ [v]
  | .pop .input => s.bound.dropLast
  | .apply args out fn =>
    match s.popAll? args with
    | none => s.bound
    | some (operands, _) =>
      s.bound.take (s.bound.length - args.count .input) ++
        if out = .input then [out.toValue (fn operands.reverse)] else []
  | _ => s.bound

/-- The state that is left when operands have been popped. -/
theorem State.eq_without_of_popAll? {s t : State} {args : List Stack} {operands : List Value}
    (h : s.popAll? args = some (operands, t)) : t = s.without args := by
  have henough (k : Stack) : args.count k ≤ s.depth k := by
    by_contra hshort
    rw [popAll?_eq_none (Nat.not_le.1 hshort)] at h
    cases h
  obtain ⟨operands', -, hpop⟩ := exists_popAll?_eq henough
  rw [h] at hpop
  cases hpop
  rfl

theorem Operation.bound_perform (s : State) (o : Operation) :
    (o.perform s).bound = o.boundAfter s := by
  cases o with
  | push k x =>
    cases k with
    | exec | integer | string => rfl
    | input => simp [perform, State.push, State.bind, State.bound, boundAfter]
  | pop k =>
    cases k with
    | exec | integer | string => rfl
    | input => simp [perform, State.pop, State.bound, boundAfter, List.map_dropLast]
  | bind v => simp [perform, State.bind, State.bound, boundAfter]
  | load p => rfl
  | apply args out fn =>
    simp only [perform, State.apply, boundAfter]
    cases hpop : s.popAll? args with
    | none => rfl
    | some popped =>
      obtain ⟨operands, t⟩ := popped
      obtain rfl := State.eq_without_of_popAll? hpop
      have hinputs := (s.exchanges_push args out (fn operands.reverse)).inputs_eq
      simp only [State.bound, hinputs, List.map_append, List.map_take, List.length_map]
      split <;> rfl
  | step d => exact congrArg (List.map (·.2)) (d.inputs_step s)
  | run d fuel => exact congrArg (List.map (·.2)) (d.inputs_run fuel s)

/-! ## Numbered inputs -/

/-- The inputs have the names of the numbers from one on. -/
def State.IsNumbered (s : State) : Prop := ∃ vs, s.inputs = numbered 0 vs

theorem length_numbered (start : Nat) (vs : List Value) : (numbered start vs).length = vs.length :=
  List.length_mapIdx

theorem numbered_concat (start : Nat) (vs : List Value) (v : Value) :
    numbered start (vs ++ [v]) = numbered start vs ++ numbered (start + vs.length) [v] := by
  rw [numbered, List.mapIdx_concat]
  rfl

/-- The names of values that are numbered are those of the numbers, in their order. -/
theorem map_fst_numbered (start : Nat) (vs : List Value) :
    (numbered start vs).map (·.1) = (List.range' (start + 1) vs.length).map inputName := by
  induction vs generalizing start with
  | nil => rfl
  | cons v vs ih =>
    rw [numbered_cons, List.map_cons, ih, List.length_cons, List.range'_succ, List.map_cons]

namespace State.IsNumbered

variable {s t : State}

theorem empty : State.empty.IsNumbered := ⟨[], rfl⟩

/-- Only the inputs matter. -/
theorem of_inputs_eq (h : s.IsNumbered) (ht : t.inputs = s.inputs) : t.IsNumbered :=
  h.imp fun _ hvs => ht.trans hvs

theorem bind (h : s.IsNumbered) (v : Value) : (s.bind v).IsNumbered := by
  obtain ⟨vs, hvs⟩ := h
  refine ⟨vs ++ [v], ?_⟩
  rw [inputs_bind, numbered_concat, hvs, length_numbered, Nat.zero_add]

theorem push (h : s.IsNumbered) (k : Stack) (x : k.Elem) : (s.push k x).IsNumbered := by
  cases k with
  | exec | integer | string => exact h.of_inputs_eq rfl
  | input => exact h.bind x

/-- A pop of an input gives its number free again. -/
theorem pop (h : s.IsNumbered) (k : Stack) : (s.pop k).IsNumbered := by
  cases k with
  | exec | integer | string => exact h.of_inputs_eq rfl
  | input =>
    obtain ⟨vs, hvs⟩ := h
    rcases List.eq_nil_or_concat vs with rfl | ⟨vs, v, rfl⟩
    · exact ⟨[], by simp [State.pop, hvs]⟩
    · refine ⟨vs, ?_⟩
      rw [List.concat_eq_append, numbered_concat] at hvs
      simp [State.pop, hvs]

/-- Operands that are popped leave numbered inputs behind. -/
theorem popAll? {args : List Stack} {vs : List Value} (h : s.IsNumbered)
    (hpop : s.popAll? args = some (vs, t)) : t.IsNumbered := by
  induction args generalizing s vs with
  | nil =>
    cases hpop
    exact h
  | cons k args ih =>
    rw [State.popAll?] at hpop
    split at hpop
    · cases hpop
    · obtain ⟨⟨ws, t'⟩, hrest, heq⟩ := Option.map_eq_some_iff.1 hpop
      cases heq
      exact ih (h.pop k) hrest

theorem apply (h : s.IsNumbered) (args : List Stack) (out : Stack) (fn : List Value → out.Elem) :
    (s.apply args out fn).IsNumbered := by
  rw [State.apply]
  split
  · exact h
  · next hpop => exact (h.popAll? hpop).push out _

/-- Every operation keeps inputs numbered. -/
theorem perform (h : s.IsNumbered) (o : Operation) : (o.perform s).IsNumbered := by
  cases o with
  | push k x => exact h.push k x
  | pop k => exact h.pop k
  | bind v => exact h.bind v
  | load p => exact h.of_inputs_eq rfl
  | apply args out fn => exact h.apply args out fn
  | step d => exact h.of_inputs_eq (d.inputs_step s)
  | run d fuel => exact h.of_inputs_eq (d.inputs_run fuel s)

theorem performAll (h : s.IsNumbered) (os : List Operation) :
    (Operation.performAll os s).IsNumbered := by
  induction os generalizing s with
  | nil => exact h
  | cons o os ih => exact ih (h.perform o)

/-- Under the name of each number there is the value at its place. -/
theorem lookup_inputName (h : s.IsNumbered) (i : Nat) :
    s.lookup (inputName (i + 1)) = s.bound[i]? := by
  obtain ⟨vs, hvs⟩ := h
  have hlookup := lookup_numbered 0 vs i
  rw [Nat.zero_add] at hlookup
  rw [lookup, hvs, hlookup, bound, hvs, map_snd_numbered]

/-- The name of the next number is not in use. -/
theorem gains_bind (h : s.IsNumbered) (v : Value) : ∃ name, s.Gains (s.bind v) [(name, v)] := by
  refine ⟨_, gains_numbered (s.inputs_bind v) fun i hi => ?_⟩
  have hnone := h.lookup_inputName (s.inputs.length + i)
  rw [List.getElem?_eq_none (by simp [bound])] at hnone
  exact lookup_eq_none_iff.1 hnone

end State.IsNumbered

/-- The names of the inputs are `in1`, `in2` and so on, in this order and each only once. Under each
of these names there is the value at its place, and under other names there is none. -/
structure State.HasOrdinalNames (s : State) : Prop where
  names_eq : s.names = (List.range' 1 s.bound.length).map inputName
  nodup_names : s.names.Nodup
  lookup_inputName : ∀ i (h : i < s.bound.length), s.lookup (inputName (i + 1)) = some s.bound[i]
  lookup_of_ne : ∀ name, (∀ i < s.bound.length, name ≠ inputName (i + 1)) → s.lookup name = none

theorem State.IsNumbered.hasOrdinalNames {s : State} (h : s.IsNumbered) : s.HasOrdinalNames := by
  have hnames : s.names = (List.range' 1 s.bound.length).map inputName := by
    obtain ⟨vs, hvs⟩ := h
    rw [State.names, State.bound, hvs, map_fst_numbered, map_snd_numbered]
  refine ⟨hnames, ?_, fun i hi => ?_, fun name hne => ?_⟩
  · rw [hnames]
    exact (List.nodup_range' 1 Nat.one_pos).map fun _ _ => inputName_inj.1
  · rw [h.lookup_inputName, List.getElem?_eq_getElem hi]
  · rw [State.lookup_eq_none_iff, hnames]
    intro hmem
    obtain ⟨i, hi, rfl⟩ := List.mem_map.1 hmem
    obtain ⟨hle, hlt⟩ := List.mem_range'_1.1 hi
    exact hne (i - 1) (by omega) (congrArg inputName (by omega))

/-- Whatever is done to the empty state, one operation after the other, the names of its inputs are
those of the ordinal numbers, and each finds the value that was bound at its place. What is bound
changes with each operation as `Operation.boundAfter` says. Steps and runs never change inputs,
whatever their names. -/
theorem performAll_hasOrdinalNames (os : List Operation) :
    (Operation.performAll os .empty).HasOrdinalNames ∧
    (∀ (s : State) (o : Operation), (o.perform s).bound = o.boundAfter s) ∧
    ∀ (d : Dialect) (s : State), (step d.registry s).inputs = s.inputs ∧
      ∀ fuel, (run d.registry fuel s).1.inputs = s.inputs :=
  ⟨(State.IsNumbered.empty.performAll os).hasOrdinalNames, Operation.bound_perform,
    fun d s => ⟨d.inputs_step s, fun fuel => d.inputs_run fuel s⟩⟩

/-- The second input is taken off and another one is bound in its place, as the result of a function
on an integer. -/
example : (Operation.performAll [.bind (.int 7), .bind (.text "a"), .pop .input, .push .integer 4,
    .apply [.integer] .input fun vs => .block vs] .empty).inputs =
      [("in1", .int 7), ("in2", .block [.int 4])] := by
  decide

end StackBreeder
