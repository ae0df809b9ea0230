import StackBreeder.Breeding.Selection
import StackBreeder.Proofs.Breeding.Drawing

/-!
# Inheritance

With a palette that has an item, and a population and tournaments that have a member, breeding never
fails, and it makes nothing up: every item of a new program is an item of the palette or of a
program of the population, and the program is at most one item longer than twice the length of one
of these (`breed_yields`). If no draw is below the rate of additions, its items all come from the
population, and it is no longer than the longest program there (`breed_yields_of_rate_le`). Each of
the operators behind it has a statement of the same kind.
-/

namespace StackBreeder

section
variable {v : Value} {a b p : Program} {ds : List Rat} {rate : Rat}

theorem keepFavoured_sublist : (keepFavoured ds p).Sublist p := by
  fun_induction keepFavoured ds p with
  | case1 _ _ _ _ _ ih => exact ih.cons_cons _
  | case2 _ _ _ _ _ ih => exact ih.cons _
  | case3 => exact List.nil_sublist _

/-- The items of a child come from its parents. -/
theorem mem_of_mem_recombine (h : v ∈ recombine ds a b) : v ∈ a ∨ v ∈ b := by
  fun_induction recombine ds a b with
  | case1 d ds x as y bs ih =>
    rcases List.mem_cons.1 h with rfl | h
    · split
      · exact .inl (.head _)
      · exact .inr (.head _)
    · exact (ih h).imp (.tail _) (.tail _)
  | case2 => exact .inl (keepFavoured_sublist.subset h)
  | case3 => exact .inr (keepFavoured_sublist.subset h)
  | case4 => cases h

/-- A child is no longer than the longer one of its parents. -/
theorem length_recombine_le : (recombine ds a b).length ≤ max a.length b.length := by
  fun_induction recombine ds a b with
  | case1 d ds x as y bs ih =>
    simp only [List.length_cons]
    omega
  | case2 => exact Nat.le_trans keepFavoured_sublist.length_le (Nat.le_max_left ..)
  | case3 => exact Nat.le_trans keepFavoured_sublist.length_le (Nat.le_max_right ..)
  | case4 => exact Nat.zero_le _

theorem retain_sublist : (retain rate ds p).Sublist p := by
  fun_induction retain rate ds p with
  | case1 _ _ _ _ _ ih => exact ih.cons _
  | case2 _ _ _ _ _ ih => exact ih.cons_cons _
  | case3 => exact List.nil_sublist _

end

open Breeding

variable {G : Type} [RandomSource G] {palette : Palette} {population : Population} {size : Int}

theorem Palette.draw_yields (h : palette ≠ []) :
    Yields (palette.draw : Breeding G Value) (· ∈ palette) := by
  rw [draw, dif_pos (List.length_pos_iff.2 h)]
  exact .draw_bind fun i => .pure (List.getElem_mem i.2)

/-- A random program has at least one item and no more than the limit, all from the palette. -/
theorem Palette.drawProgram_yields (h : palette ≠ []) {maxSize : Int} (hsize : 1 ≤ maxSize) :
    Yields (palette.drawProgram maxSize : Breeding G Program) fun p =>
      (p ≠ [] ∧ p.length ≤ maxSize) ∧ ∀ v ∈ p, v ∈ palette := by
  have hempty : palette.isEmpty = false := by simpa using h
  have hpos : 0 < maxSize.toNat := by omega
  simp only [drawProgram, hempty, dif_pos hpos]
  refine .draw_bind fun i => ((draw_yields h).times (i + 1)).mono fun p ⟨hlength, hp⟩ => ?_
  have hi := i.2
  exact ⟨⟨List.ne_nil_of_length_pos (by omega), by omega⟩, hp⟩

/-- A tournament is won by a member of the population. -/
theorem tournament_yields (h : 0 < population.size) (hsize : 1 ≤ size) :
    Yields (tournament population size : Breeding G Individual) (· ∈ population) := by
  have hdraw (g : G) : (population.draw h g).1 ∈ population := Array.getElem_mem _
  rw [tournament, dif_pos h, if_neg (by omega)]
  refine (Yields.times_lift hdraw size.toNat).bind fun entrants ⟨hlength, hentrants⟩ => ?_
  have hne : entrants ≠ [] := List.ne_nil_of_length_pos (by omega)
  obtain ⟨winner, hwinner⟩ := Option.isSome_iff_exists.1
    (List.isSome_minOn?_iff (f := fun i : Individual => i.total).2 hne)
  simp only [hwinner]
  exact .pure (hentrants winner (List.minOn?_mem hwinner))

/-- At most one item is inserted at a time. -/
theorem insertion_yields (h : palette ≠ []) (rate : Rat) :
    Yields (insertion palette rate : Breeding G Program) fun items =>
      items.length ≤ 1 ∧ ∀ v ∈ items, v ∈ palette := by
  refine .draw_bind fun d => ?_
  split
  · exact (Palette.draw_yields h).bind fun v hv => .pure ⟨Nat.le_refl 1, by simpa using hv⟩
  · exact .pure ⟨Nat.zero_le 1, nofun⟩

/-- What is put together from the items of a program, each with at most one item of the palette. -/
theorem flatten_of_forall₂ {p : Program} {parts : List Program}
    (h : List.Forall₂ (fun item part => part.length ≤ 2 ∧ ∀ v ∈ part, v ∈ palette ∨ v = item)
      p parts) :
    parts.flatten.length ≤ 2 * p.length ∧ ∀ v ∈ parts.flatten, v ∈ palette ∨ v ∈ p := by
  induction h with
  | nil => exact ⟨Nat.le_refl 0, nofun⟩
  | cons hpart _ ih =>
    obtain ⟨hlength, hpart⟩ := hpart
    obtain ⟨hlengths, hparts⟩ := ih
    refine ⟨?_, fun v hv => ?_⟩
    · simp only [List.flatten_cons, List.length_append, List.length_cons]
      omega
    · rcases List.mem_append.1 hv with hv | hv
      · exact (hpart v hv).imp_right fun h : v = _ => h ▸ .head _
      · exact (hparts v hv).imp_right (.tail _)

theorem addition_yields (h : palette ≠ []) (rate : Rat) (p : Program) :
    Yields (addition palette rate p : Breeding G Program) fun child =>
      child.length ≤ 2 * p.length + 1 ∧ ∀ v ∈ child, v ∈ palette ∨ v ∈ p := by
  have hpart (item : Value) : Yields
      (do let added ← insertion palette rate; pure (added ++ [item]) : Breeding G Program)
      fun part => part.length ≤ 2 ∧ ∀ v ∈ part, v ∈ palette ∨ v = item :=
    (insertion_yields h rate).bind fun added ⟨hlength, hadded⟩ => .pure
      ⟨by simpa using hlength, fun v hv => (List.mem_append.1 hv).imp (hadded v) (by simp)⟩
  refine (Yields.mapM fun item _ => hpart item).bind fun parts hparts =>
    (insertion_yields h rate).bind fun last ⟨hlast, hitems⟩ => .pure ?_
  obtain ⟨hlength, hflatten⟩ := flatten_of_forall₂ hparts
  refine ⟨?_, fun v hv => ?_⟩
  · rw [List.length_append]
    omega
  · rcases List.mem_append.1 hv with hv | hv
    · exact hflatten v hv
    · exact .inl (hitems v hv)

theorem insertion_yields_nil {rate : Rat} (hrate : ∀ g : G, rate ≤ (RandomSource.unit g).1) :
    Yields (insertion palette rate : Breeding G Program) (· = []) := by
  refine (Yields.lift (P := (rate ≤ ·)) hrate).bind fun d hd => ?_
  rw [if_neg (Rat.not_lt.2 hd)]
  exact .pure rfl

/-- If no draw is below the rate, nothing is added. -/
theorem addition_yields_self {rate : Rat} (hrate : ∀ g : G, rate ≤ (RandomSource.unit g).1)
    (p : Program) : Yields (addition palette rate p : Breeding G Program) (· = p) := by
  have hpart (item : Value) : Yields
      (do let added ← insertion palette rate; pure (added ++ [item]) : Breeding G Program)
      (· = [item]) :=
    (insertion_yields_nil hrate).bind fun added hadded => .pure (by rw [hadded, List.nil_append])
  refine (Yields.mapM fun item _ => hpart item).bind fun parts hparts =>
    (insertion_yields_nil hrate).bind fun last hlast => .pure ?_
  have hflatten : parts.flatten = p := by
    induction hparts with
    | nil => rfl
    | cons hpart _ ih => rw [List.flatten_cons, hpart, ih, List.singleton_append]
  rw [hlast, hflatten, List.append_nil]

/-- Breeding does not fail, and a new program has what each of the three kinds of variation gives to
it. -/
theorem breed_yields_of {R : Program → Prop} {rates : Rates} (hpopulation : 0 < population.size)
    (hsize : 1 ≤ size)
    (hcrossover : ∀ a ∈ population, ∀ b ∈ population, ∀ ds, R (recombine ds a.program b.program))
    (haddition : ∀ i ∈ population,
      Yields (addition palette rates.addition i.program : Breeding G Program) R)
    (hdeletion : ∀ i ∈ population, ∀ ds, R (retain rates.deletion ds i.program)) :
    Yields (breed population size palette rates : Breeding G Program) R := by
  refine .draw_bind fun d => ?_
  have hparent := tournament_yields (G := G) hpopulation hsize
  cases Variation.ofDraw d with
  | crossover =>
    exact hparent.bind fun a ha => hparent.bind fun b hb => .lift fun g => hcrossover a ha b hb _
  | addition => exact hparent.bind haddition
  | deletion => exact hparent.bind fun parent hp => .lift fun g => hdeletion parent hp _

/-- A program has no items but those of a population, and is no longer than all of its programs. -/
def Population.Covers (population : Population) (p : Program) : Prop :=
  (∃ i ∈ population, p.length ≤ i.program.length) ∧ ∀ v ∈ p, ∃ i ∈ population, v ∈ i.program

section
variable {i j : Individual}

theorem Population.covers_of_sublist {p : Program} (hi : i ∈ population)
    (h : p.Sublist i.program) : population.Covers p :=
  ⟨⟨i, hi, h.length_le⟩, fun _ hv => ⟨i, hi, h.subset hv⟩⟩

theorem Population.covers_recombine (hi : i ∈ population) (hj : j ∈ population) (ds : List Rat) :
    population.Covers (recombine ds i.program j.program) := by
  refine ⟨?_, fun v hv => ?_⟩
  · have hlength : (recombine ds i.program j.program).length ≤ _ := length_recombine_le
    rcases Nat.le_total i.program.length j.program.length with hle | hle
    · exact ⟨j, hj, by omega⟩
    · exact ⟨i, hi, by omega⟩
  · rcases mem_of_mem_recombine hv with hv | hv
    · exact ⟨i, hi, hv⟩
    · exact ⟨j, hj, hv⟩

end

/-- A new program has no items but those of the palette and of the population, and it is at most one
item longer than twice the length of a program of the population. -/
theorem breed_yields (h : palette ≠ []) (hpopulation : 0 < population.size) (hsize : 1 ≤ size)
    (rates : Rates) :
    Yields (breed population size palette rates : Breeding G Program) fun child =>
      (∃ i ∈ population, child.length ≤ 2 * i.program.length + 1) ∧
        ∀ v ∈ child, v ∈ palette ∨ ∃ i ∈ population, v ∈ i.program := by
  have hcovered {child : Program} (hchild : population.Covers child) :
      (∃ i ∈ population, child.length ≤ 2 * i.program.length + 1) ∧
        ∀ v ∈ child, v ∈ palette ∨ ∃ i ∈ population, v ∈ i.program := by
    obtain ⟨⟨i, hi, hlength⟩, hitems⟩ := hchild
    exact ⟨⟨i, hi, by omega⟩, fun v hv => .inr (hitems v hv)⟩
  refine breed_yields_of hpopulation hsize
    (fun a ha b hb ds => hcovered (Population.covers_recombine ha hb ds)) (fun i hi => ?_)
    fun i hi ds => hcovered (Population.covers_of_sublist hi retain_sublist)
  refine (addition_yields h _ _).mono fun child ⟨hlength, hitems⟩ => ?_
  exact ⟨⟨i, hi, hlength⟩, fun v hv => (hitems v hv).imp_right fun hv => ⟨i, hi, hv⟩⟩

/-- If no draw is below the rate of additions, a new program has nothing that the population does
not have. -/
theorem breed_yields_of_rate_le (hpopulation : 0 < population.size) (hsize : 1 ≤ size)
    {rates : Rates} (hrate : ∀ g : G, rates.addition ≤ (RandomSource.unit g).1) :
    Yields (breed population size palette rates : Breeding G Program) population.Covers := by
  refine breed_yields_of hpopulation hsize
    (fun a ha b hb ds => Population.covers_recombine ha hb ds) (fun i hi => ?_)
    fun i hi ds => Population.covers_of_sublist hi retain_sublist
  refine (addition_yields_self hrate _).mono fun child hchild => ?_
  rw [hchild]
  exact Population.covers_of_sublist hi (List.Sublist.refl _)

end StackBreeder
