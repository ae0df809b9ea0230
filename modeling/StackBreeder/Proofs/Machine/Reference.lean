import Mathlib.Data.Set.Finite.Basic
import Mathlib.Order.Preorder.Finite
import Mathlib.Order.WellFounded
import StackBreeder.Proofs.Machine.Dialect
import StackBreeder.Proofs.Program.Parts

/-!
# References between inputs

A name that is read as an input refers to the symbols in the value bound to it (`Refers`). The
expansion of a value comes to an end (`Grounded`) exactly if no symbol in it starts an endless chain
of references (`grounded_iff`). Since only names that are bound refer to anything, an endless chain
is one that reaches a cycle (`endless_iff_reachesCycle`).
-/

namespace StackBreeder.Dialect

variable (d : Dialect) (inputs : List (String × Value))

/-- A name refers to a symbol if it is registered as an input and the symbol occurs, at some depth,
in the value bound to it. -/
def Refers (n m : String) : Prop :=
  d.find? n = some (.input n) ∧ ∃ v, inputs.lookup n = some v ∧ .sym m ∈ v.parts

/-- A name starts an endless chain of references. -/
def Endless (name : String) : Prop :=
  ∃ chain : Nat → String, chain 0 = name ∧ ∀ i, d.Refers inputs (chain i) (chain (i + 1))

/-- References lead from a name to one that refers back to itself. -/
def ReachesCycle (name : String) : Prop :=
  ∃ m, Relation.ReflTransGen (d.Refers inputs) name m ∧ Relation.TransGen (d.Refers inputs) m m

/-- Replacing a value by its expansion, and the values in there by theirs, comes to an end. -/
def Grounded (v : Value) : Prop := Acc (fun w v => w ∈ d.expansion inputs v) v

variable {d inputs} {name m : String} {v w : Value} {p : Program}

/-! ## Chains and cycles -/

/-- A name starts an endless chain if it is not reached by going up from names that refer to
nothing. -/
theorem endless_iff_not_acc :
    d.Endless inputs name ↔ ¬ Acc (fun m n => d.Refers inputs n m) name :=
  (not_acc_iff_exists_descending_chain (r := fun m n => d.Refers inputs n m)).symm

theorem mem_inputs_of_lookup (h : inputs.lookup name = some v) : (name, v) ∈ inputs := by
  obtain ⟨front, back, rfl, -⟩ := List.lookup_eq_some_iff.1 h
  simp

theorem Refers.mem_names (h : d.Refers inputs name m) : name ∈ inputs.map (·.1) := by
  obtain ⟨-, v, hv, -⟩ := h
  exact List.mem_map_of_mem (mem_inputs_of_lookup hv)

/-- A name that reaches a cycle refers to one that does. -/
theorem ReachesCycle.exists_refers (h : d.ReachesCycle inputs name) :
    ∃ m, d.Refers inputs name m ∧ d.ReachesCycle inputs m := by
  obtain ⟨m, hreach, hcycle⟩ := h
  rcases hreach.cases_head with rfl | ⟨k, hk, hreach⟩
  · obtain ⟨k, hk, hback⟩ := Relation.TransGen.head'_iff.1 hcycle
    exact ⟨k, hk, name, hback, hcycle⟩
  · exact ⟨k, hk, m, hreach, hcycle⟩

/-- A chain leads from each of its names to all later ones. -/
theorem reflTransGen_chain {chain : Nat → String}
    (hchain : ∀ i, d.Refers inputs (chain i) (chain (i + 1))) (i k : Nat) :
    Relation.ReflTransGen (d.Refers inputs) (chain i) (chain (i + k)) := by
  induction k with
  | zero => exact .refl
  | succ k ih => exact ih.tail (hchain (i + k))

/-- An endless chain runs through finitely many names, so it meets one of them twice. -/
theorem Endless.reachesCycle (h : d.Endless inputs name) : d.ReachesCycle inputs name := by
  obtain ⟨chain, rfl, hchain⟩ := h
  have hmem (i : Nat) : chain i ∈ {n | n ∈ inputs.map (·.1)} := (hchain i).mem_names
  obtain ⟨i, j, hij, heq⟩ :=
    Set.Finite.exists_lt_map_eq_of_forall_mem hmem (List.finite_toSet (inputs.map (·.1)))
  have hreach := reflTransGen_chain hchain 0 i
  rw [Nat.zero_add] at hreach
  refine ⟨chain i, hreach, .head' (hchain i) ?_⟩
  obtain ⟨k, rfl⟩ := Nat.exists_eq_add_of_le hij
  have hback := reflTransGen_chain hchain (i + 1) k
  rwa [← heq] at hback

/-- A name starts an endless chain of references exactly if it reaches a cycle. -/
theorem endless_iff_reachesCycle : d.Endless inputs name ↔ d.ReachesCycle inputs name := by
  refine ⟨Endless.reachesCycle, fun h => endless_iff_not_acc.2 fun hacc => ?_⟩
  induction hacc with
  | intro name _ ih =>
    obtain ⟨m, hm, h⟩ := h.exists_refers
    exact ih m hm h

/-! ## Expansions that end -/

/-- The expansion of a symbol is the value of an input of that name, if it is registered and
bound. -/
theorem mem_expansion_sym :
    w ∈ d.expansion inputs (.sym name) ↔
      d.find? name = some (.input name) ∧ inputs.lookup name = some w := by
  constructor
  · intro h
    simp only [expansion] at h
    split at h
    · next name' hb =>
      obtain rfl : name' = name := name_of_find? hb
      exact ⟨hb, by simpa using h⟩
    · cases h
  · rintro ⟨hb, hv⟩
    simp [expansion, hb, hv]

/-- A value is grounded if the values of its expansion are. -/
theorem grounded_iff_expansion :
    d.Grounded inputs v ↔ ∀ w ∈ d.expansion inputs v, d.Grounded inputs w :=
  acc_def

@[simp] theorem grounded_int (n : Int) : d.Grounded inputs (.int n) := ⟨_, nofun⟩

@[simp] theorem grounded_text (content : String) : d.Grounded inputs (.text content) := ⟨_, nofun⟩

@[simp] theorem grounded_block {items : List Value} :
    d.Grounded inputs (.block items) ↔ ∀ w ∈ items, d.Grounded inputs w :=
  grounded_iff_expansion

/-- A symbol is grounded if the value that it reads is, or if it reads none. -/
theorem grounded_sym_iff :
    d.Grounded inputs (.sym name) ↔
      ∀ w, d.find? name = some (.input name) → inputs.lookup name = some w →
        d.Grounded inputs w := by
  rw [grounded_iff_expansion]
  simp only [mem_expansion_sym, and_imp]

/-- A value is grounded if its symbols are. -/
theorem grounded_of_parts (v : Value)
    (h : ∀ name, .sym name ∈ v.parts → d.Grounded inputs (.sym name)) : d.Grounded inputs v := by
  induction v using Value.induction with
  | int n => exact grounded_int n
  | text content => exact grounded_text content
  | sym name => exact h name (by simp)
  | block items ih =>
    refine grounded_block.2 fun w hw => ih w hw fun name hname => h name ?_
    rw [Value.parts_block]
    exact .tail _ (Program.mem_parts_iff.2 ⟨w, hw, hname⟩)

/-- A symbol is grounded if the references from it come to an end. -/
theorem grounded_sym (h : Acc (fun m n => d.Refers inputs n m) name) :
    d.Grounded inputs (.sym name) := by
  induction h with
  | intro name _ ih =>
    refine grounded_sym_iff.2 fun w hb hv => grounded_of_parts w fun m hm => ih m ?_
    exact ⟨hb, w, hv, hm⟩

/-- The references from the symbols of a grounded value come to an end. -/
theorem Grounded.acc (h : d.Grounded inputs v) :
    ∀ name, .sym name ∈ v.parts → Acc (fun m n => d.Refers inputs n m) name := by
  induction h with
  | intro v _ ih =>
    intro name hname
    cases v with
    | int | text => simp [Value.parts] at hname
    | sym n =>
      obtain rfl : name = n := by simpa using hname
      exact ⟨_, fun m ⟨hb, w, hv, hm⟩ => ih w (mem_expansion_sym.2 ⟨hb, hv⟩) m hm⟩
    | block items =>
      have hname : .sym name ∈ Program.parts items := by simpa using hname
      obtain ⟨w, hw, hname⟩ := Program.mem_parts_iff.1 hname
      exact ih w hw name hname

/-- The expansions of the items of a program come to an end exactly if no symbol of the program
starts an endless chain of references. -/
theorem grounded_iff :
    (∀ v ∈ p, d.Grounded inputs v) ↔ ¬ ∃ name, .sym name ∈ p.parts ∧ d.Endless inputs name := by
  constructor
  · rintro h ⟨name, hname, hendless⟩
    obtain ⟨v, hv, hname⟩ := Program.mem_parts_iff.1 hname
    exact endless_iff_not_acc.1 hendless ((h v hv).acc name hname)
  · intro h v hv
    refine grounded_of_parts v fun name hname => grounded_sym ?_
    by_contra hacc
    exact h ⟨name, Program.mem_parts_iff.2 ⟨v, hv, hname⟩, endless_iff_not_acc.2 hacc⟩

end StackBreeder.Dialect
