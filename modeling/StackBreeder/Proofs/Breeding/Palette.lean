import StackBreeder.Breeding.Palette
import StackBreeder.Proofs.Program.Parts

/-!
# Palettes that can be used

A palette can be used if it has an item and all its symbols are names of instructions. The check
reports what is wrong with any other palette (`Palette.check_eq_error_iff`), and of several symbols
without an instruction the first one. It does not look into blocks, and a symbol without an
instruction can get into a program in no other way (`Palette.IsKnown.exists_block`).
-/

namespace StackBreeder

section
variable {reg : Registry} {palette front back : Palette} {name : String} {index start : Nat}

/-- A registry contains the names of its instructions. -/
theorem Registry.contains_iff : reg.contains name = true ↔ name ∈ reg.names := by
  simp only [contains, find?, List.find?_isSome, beq_iff_eq, names, List.mem_map]

namespace Palette

/-- All symbols of a palette are names of instructions. -/
def IsKnown (reg : Registry) (palette : Palette) : Prop :=
  ∀ name, .sym name ∈ palette → name ∈ reg.names

/-- The symbol at an index is the first one of a palette that is the name of no instruction. -/
def IsFirstUnknown (reg : Registry) (palette : Palette) (index : Nat) (name : String) : Prop :=
  ∃ front back, palette = front ++ .sym name :: back ∧ index = front.length ∧
    name ∉ reg.names ∧ IsKnown reg front

theorem isKnown_cons {v : Value} :
    IsKnown reg (v :: palette) ↔ (∀ name, v = .sym name → name ∈ reg.names) ∧
      IsKnown reg palette := by
  constructor
  · intro h
    refine ⟨?_, fun name hmem => h name (.tail _ hmem)⟩
    rintro name rfl
    exact h name (.head _)
  · rintro ⟨hv, h⟩ name hmem
    rcases List.mem_cons.1 hmem with hname | hmem
    · exact hv name hname.symm
    · exact h name hmem

/-- The search goes on behind items that are known, and counts them. -/
theorem firstUnknown?_append (h : IsKnown reg front) :
    firstUnknown? reg start (front ++ back) = firstUnknown? reg (start + front.length) back := by
  induction front generalizing start with
  | nil => rfl
  | cons v front ih =>
    obtain ⟨hv, h⟩ := isKnown_cons.1 h
    have hlength : start + (v :: front).length = start + 1 + front.length := by
      rw [List.length_cons]
      omega
    rw [hlength, ← ih h]
    cases v with
    | int | text | block => rfl
    | sym name =>
      rw [List.cons_append, firstUnknown?, if_pos (Registry.contains_iff.2 (hv name rfl))]

/-- The search finds nothing in a palette that is known. -/
theorem firstUnknown?_of_isKnown (h : IsKnown reg palette) :
    firstUnknown? reg start palette = none := by
  rw [← List.append_nil palette, firstUnknown?_append h]
  rfl

/-- The search finds the first unknown symbol. -/
theorem firstUnknown?_of_isFirstUnknown (h : IsFirstUnknown reg palette index name) :
    firstUnknown? reg 0 palette = some (index, name) := by
  obtain ⟨front, back, rfl, rfl, hname, hfront⟩ := h
  rw [firstUnknown?_append hfront, Nat.zero_add, firstUnknown?,
    if_neg (mt Registry.contains_iff.1 hname)]

/-- A palette is known, or it has a first symbol that is not. -/
theorem isKnown_or_exists_isFirstUnknown (reg : Registry) (palette : Palette) :
    IsKnown reg palette ∨ ∃ index name, IsFirstUnknown reg palette index name := by
  induction palette with
  | nil => exact .inl nofun
  | cons v palette ih =>
    by_cases hv : ∀ name, v = .sym name → name ∈ reg.names
    · rcases ih with h | ⟨index, name, front, back, rfl, rfl, hname, hfront⟩
      · exact .inl (isKnown_cons.2 ⟨hv, h⟩)
      · exact .inr ⟨_, name, v :: front, back, rfl, rfl, hname, isKnown_cons.2 ⟨hv, hfront⟩⟩
    · obtain ⟨name, hv⟩ := Classical.not_forall.1 hv
      obtain ⟨rfl, hname⟩ := Classical.not_imp.1 hv
      exact .inr ⟨0, name, [], palette, rfl, rfl, hname, nofun⟩

/-- The search finds the first unknown symbol, and nothing else. -/
theorem firstUnknown?_eq_some_iff :
    firstUnknown? reg 0 palette = some (index, name) ↔ IsFirstUnknown reg palette index name := by
  refine ⟨fun h => ?_, firstUnknown?_of_isFirstUnknown⟩
  rcases isKnown_or_exists_isFirstUnknown reg palette with hknown | ⟨_, _, hfirst⟩
  · rw [firstUnknown?_of_isKnown hknown] at h
    cases h
  · rw [firstUnknown?_of_isFirstUnknown hfirst] at h
    cases h
    exact hfirst

/-- What can be wrong with a palette. -/
def Fault (reg : Registry) (palette : Palette) : Error → Prop
  | .empty => palette = []
  | .unknown index name => IsFirstUnknown reg palette index name

/-- A palette has a fault if it has no item, or a symbol that is the name of no instruction. -/
theorem exists_fault_iff :
    (∃ e, palette.Fault reg e) ↔ palette = [] ∨ ∃ name, .sym name ∈ palette ∧ name ∉ reg.names := by
  constructor
  · rintro ⟨e, h⟩
    cases e with
    | empty => exact .inl h
    | unknown index name =>
      obtain ⟨front, back, rfl, -, hname, -⟩ := h
      exact .inr ⟨name, by simp, hname⟩
  · rintro (h | ⟨name, hmem, hname⟩)
    · exact ⟨.empty, h⟩
    · rcases isKnown_or_exists_isFirstUnknown reg palette with hknown | ⟨index, other, hfirst⟩
      · exact absurd (hknown name hmem) hname
      · exact ⟨.unknown index other, hfirst⟩

/-- The check reports the fault of a palette. -/
theorem check_eq_error_iff {e : Error} : palette.check reg = .error e ↔ palette.Fault reg e := by
  by_cases hempty : palette = []
  · subst hempty
    cases e with
    | empty => exact ⟨fun _ => rfl, fun _ => rfl⟩
    | unknown index name =>
      refine ⟨nofun, ?_⟩
      rintro ⟨front, back, h, -⟩
      simp at h
  · rw [check, if_neg (by simpa using hempty)]
    constructor
    · intro h
      split at h
      · next hfind =>
        cases h
        exact firstUnknown?_eq_some_iff.1 hfind
      · cases h
    · intro h
      cases e with
      | empty => exact absurd h hempty
      | unknown index name => rw [firstUnknown?_eq_some_iff.2 h]

/-- A palette that passes the check is known. -/
theorem isKnown_of_check (h : palette.check reg = .ok ()) : IsKnown reg palette := by
  refine (isKnown_or_exists_isFirstUnknown reg palette).resolve_right ?_
  rintro ⟨index, name, hfirst⟩
  rw [check_eq_error_iff.2 (show palette.Fault reg (.unknown index name) from hfirst)] at h
  cases h

/-- The check does not look into blocks: a symbol without an instruction that occurs in a program of
items of a known palette occurs in a block. -/
theorem IsKnown.exists_block {p : Program} (h : IsKnown reg palette) (hp : ∀ v ∈ p, v ∈ palette)
    (hname : name ∉ reg.names) (hmem : .sym name ∈ Program.parts p) :
    ∃ items, .block items ∈ p ∧ .sym name ∈ Program.parts items := by
  obtain ⟨v, hv, hmem⟩ := Program.mem_parts_iff.1 hmem
  cases v with
  | int | text => cases List.mem_singleton.1 hmem
  | sym other =>
    cases List.mem_singleton.1 hmem
    exact absurd (h name (hp _ hv)) hname
  | block items => exact ⟨items, hv, by simpa using hmem⟩

end Palette

end

end StackBreeder
