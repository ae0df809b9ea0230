import StackBreeder.Proofs.Machine.Halting

/-!
# The names of inputs

An input is bound to the name of its ordinal number, `in1`, `in2` and so on, where the number is one
more than that of the inputs there are (`State.inputs_bindAll`). Different numbers make different
names (`inputName_inj`), so that values which are numbered one after the other are found under their
names (`lookup_numbered`).

The inputs of a state may have any names. A binding is as it should be (`State.Gains`) if its name
was not in use: the value is found under the name, and nothing else has changed. Whether the names
of the next inputs are in use does not depend on the number of inputs alone (`bind_gains_iff`): a
single input of the name `in2` is in the way of the second one (`bind_second_of_second`).
-/

namespace StackBreeder

/-- Different numbers make different names. -/
theorem inputName_inj {i j : Nat} : inputName i = inputName j ↔ i = j := by
  refine ⟨fun h => ?_, congrArg inputName⟩
  have hdigits : Nat.toDigits 10 i = Nat.toDigits 10 j := by
    simpa [inputName] using congrArg String.toList h
  have hread := congrArg Text.natural? hdigits
  rwa [Text.natural?_toDigits, Text.natural?_toDigits, Option.some.injEq] at hread

/-- Values with the names of the numbers that follow a number. -/
def numbered (start : Nat) (vs : List Value) : List (String × Value) :=
  vs.mapIdx fun i v => (inputName (start + i + 1), v)

section
variable {start : Nat} {b : String × Value} {vs : List Value} {name : String}

@[simp] theorem numbered_nil (start : Nat) : numbered start [] = [] := rfl

@[simp] theorem numbered_cons (start : Nat) (v : Value) (vs : List Value) :
    numbered start (v :: vs) = (inputName (start + 1), v) :: numbered (start + 1) vs := by
  simp [numbered, List.mapIdx_cons, Nat.add_assoc, Nat.add_comm 1]

theorem mem_numbered_iff :
    b ∈ numbered start vs ↔ ∃ i v, vs[i]? = some v ∧ (inputName (start + i + 1), v) = b := by
  rw [numbered, List.mem_iff_getElem?]
  simp only [List.getElem?_mapIdx, Option.map_eq_some_iff]

theorem map_snd_numbered (start : Nat) (vs : List Value) : (numbered start vs).map (·.2) = vs := by
  induction vs generalizing start with
  | nil => rfl
  | cons v vs ih => rw [numbered_cons, List.map_cons, ih]

/-- Each of the values that are numbered is found under its name. -/
theorem lookup_numbered (start : Nat) (vs : List Value) (i : Nat) :
    (numbered start vs).lookup (inputName (start + i + 1)) = vs[i]? := by
  induction vs generalizing start i with
  | nil => rfl
  | cons v vs ih =>
    rw [numbered_cons]
    cases i with
    | zero => rw [Nat.add_zero, List.lookup_cons_self, List.getElem?_cons_zero]
    | succ i =>
      have hne : inputName (start + (i + 1) + 1) ≠ inputName (start + 1) :=
        mt inputName_inj.1 (by omega)
      have hnumber : start + (i + 1) + 1 = start + 1 + i + 1 := by omega
      rw [List.lookup_cons, beq_false_of_ne hne, List.getElem?_cons_succ, hnumber]
      exact ih (start + 1) i

end

namespace State

/-- The names under which inputs are bound. -/
def names (s : State) : List String := s.inputs.map (·.1)

variable {s t : State} {v : Value} {vs : List Value} {name : String}
  {bound : List (String × Value)}

/-- A name that is not in use is not found. -/
theorem lookup_eq_none_iff : s.lookup name = none ↔ name ∉ s.names := by
  simp only [lookup, names, List.lookup_eq_none_iff, bne_iff_ne, List.mem_map, not_exists, not_and]
  exact forall₂_congr fun b _ => ne_comm

/-- Values are bound to the names that follow from the number of inputs. -/
theorem inputs_bindAll (s : State) (vs : List Value) :
    (s.bindAll vs).inputs = s.inputs ++ numbered s.inputs.length vs := by
  rw [bindAll_eq, numbered]

theorem inputs_bind (s : State) (v : Value) :
    (s.bind v).inputs = s.inputs ++ numbered s.inputs.length [v] :=
  s.inputs_bindAll [v]

/-- A state has more inputs than another one, with names that are not in use there: each of the new
inputs is found under its name, and under all other names there is what there was. -/
structure Gains (s t : State) (bound : List (String × Value)) : Prop where
  inputs_eq : t.inputs = s.inputs ++ bound
  not_mem_names : ∀ b ∈ bound, b.1 ∉ s.names
  lookup_eq : ∀ b ∈ bound, t.lookup b.1 = some b.2
  lookup_of_ne : ∀ name, (∀ b ∈ bound, b.1 ≠ name) → t.lookup name = s.lookup name

/-- More inputs, of which those that are numbered have names that are not in use. -/
theorem gains_numbered (ht : t.inputs = s.inputs ++ numbered s.inputs.length vs)
    (hunused : ∀ i < vs.length, inputName (s.inputs.length + i + 1) ∉ s.names) :
    s.Gains t (numbered s.inputs.length vs) where
  inputs_eq := ht
  not_mem_names := by
    intro b hb
    obtain ⟨i, v, hv, rfl⟩ := mem_numbered_iff.1 hb
    exact hunused i (List.getElem?_eq_some_iff.1 hv).1
  lookup_eq := by
    intro b hb
    obtain ⟨i, v, hv, rfl⟩ := mem_numbered_iff.1 hb
    have hnone := lookup_eq_none_iff.2 (hunused i (List.getElem?_eq_some_iff.1 hv).1)
    rw [lookup] at hnone
    rw [lookup, ht, List.lookup_append, hnone, Option.none_or, lookup_numbered, hv]
  lookup_of_ne := by
    intro name hne
    have hnone : (numbered s.inputs.length vs).lookup name = none :=
      List.lookup_eq_none_iff.2 fun b hb => bne_iff_ne.2 (hne b hb).symm
    rw [lookup, ht, List.lookup_append, hnone, Option.or_none, lookup]

/-- Values are bound to names that are not in use exactly if none of the names of the next ordinal
numbers is in use. -/
theorem exists_gains_iff (ht : t.inputs = s.inputs ++ numbered s.inputs.length vs) :
    (∃ bound, bound.map (·.2) = vs ∧ s.Gains t bound) ↔
      ∀ i < vs.length, inputName (s.inputs.length + i + 1) ∉ s.names := by
  constructor
  · rintro ⟨bound, -, h⟩ i hi
    obtain rfl : numbered s.inputs.length vs = bound :=
      List.append_cancel_left (ht.symm.trans h.inputs_eq)
    exact h.not_mem_names _ (mem_numbered_iff.2 ⟨i, vs[i], List.getElem?_eq_getElem hi, rfl⟩)
  · intro hunused
    exact ⟨_, map_snd_numbered _ vs, gains_numbered ht hunused⟩

end State

/-! ## Runs -/

namespace Dialect

/-- A step leaves the inputs alone. -/
theorem inputs_step (d : Dialect) (s : State) : (step d.registry s).inputs = s.inputs := by
  cases hexec : s.exec with
  | nil => rw [step_of_exec_nil hexec]
  | cons v code =>
    rw [step_of_exec hexec]
    rfl

/-- A run leaves the inputs alone. -/
theorem inputs_run (d : Dialect) (fuel : Int) (s : State) :
    (run d.registry fuel s).1.inputs = s.inputs := by
  rw [run_fst]
  generalize (run d.registry fuel s).2.steps = n
  induction n with
  | zero => rfl
  | succ n ih => rw [Function.iterate_succ_apply', inputs_step, ih]

end Dialect

/-- A value that is bound gets a name that was not in use, under which it is found, and under all
other names there is what there was, exactly if the name of the next ordinal number was not in use.
The inputs of a program get such names, and are found under them at every point of its run, exactly
if none of the next ordinal numbers was in use. -/
theorem bind_gains_iff (s : State) :
    (∀ v, (∃ name, s.Gains (s.bind v) [(name, v)]) ↔
      inputName (s.inputs.length + 1) ∉ s.names) ∧
    ∀ (d : Dialect) (fuel : Int) (vs : List Value) (p : Program),
      (∃ bound, bound.map (·.2) = vs ∧
        s.Gains (runProgram d.registry fuel s vs p).1 bound) ↔
      ∀ i < vs.length, inputName (s.inputs.length + i + 1) ∉ s.names := by
  refine ⟨fun v => ?_, fun d fuel vs p => State.exists_gains_iff ?_⟩
  · have hone := State.exists_gains_iff (s.inputs_bind v)
    constructor
    · rintro ⟨name, h⟩
      exact hone.1 ⟨_, rfl, h⟩ 0 Nat.one_pos
    · intro hunused
      exact ⟨_, State.gains_numbered (s.inputs_bind v) (by simpa using hunused)⟩
  · rw [runProgram, d.inputs_run]
    exact s.inputs_bindAll vs

/-- With one input, and that of the name `in2`, the value that is bound next gets this name too, and
then is found under no name. -/
theorem bind_second_of_second :
    (State.bind { inputs := [("in2", .int 7)] } (.int 5)).inputs =
      [("in2", .int 7), ("in2", .int 5)] ∧
    (∀ name, (State.bind { inputs := [("in2", .int 7)] } (.int 5)).lookup name ≠ some (.int 5)) ∧
    ¬ ∃ name, State.Gains { inputs := [("in2", .int 7)] }
      (State.bind { inputs := [("in2", .int 7)] } (.int 5)) [(name, .int 5)] := by
  have hinputs : (State.bind { inputs := [("in2", .int 7)] } (.int 5)).inputs =
      [("in2", .int 7), ("in2", .int 5)] := by decide
  have hlookup (name : String) :
      (State.bind { inputs := [("in2", .int 7)] } (.int 5)).lookup name ≠ some (.int 5) := by
    rw [State.lookup, hinputs, List.lookup_cons]
    cases hname : name == "in2" with
    | true => simp
    | false => simp [List.lookup_cons, hname]
  refine ⟨hinputs, hlookup, ?_⟩
  rintro ⟨name, h⟩
  exact hlookup name (h.lookup_eq _ (.head _))

end StackBreeder
