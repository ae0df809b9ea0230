import Mathlib.Tactic.Choose
import StackBreeder.Breeding.Selection
import StackBreeder.Proofs.Breeding.Drawing
import StackBreeder.Proofs.Breeding.Fittest
import StackBreeder.Proofs.Random.Record
import StackBreeder.Random.Twister

/-!
# Tournaments

The entrants of a tournament are drawn one after the other, each from the whole population, and
nothing else is drawn (`Population.draws_choice`). So what is drawn does not depend on the size of
the tournament: a larger one has the same entrants in front, and then some more. The winner is the
first entrant of the least total among them (`WinsAmong`), whence more entrants can only lower the
total, and another winner has a total which is strictly less (`tournament_choices`).
-/

namespace StackBreeder

section
variable {total : Nat → Int} {n n' w w' : Nat}

/-- Of `n` entrants the one at `w` wins: none has a smaller total, and those before it have greater
ones. -/
structure WinsAmong (total : Nat → Int) (n w : Nat) : Prop where
  lt : w < n
  le : ∀ i < n, total w ≤ total i
  lt_of_lt : ∀ i < w, total w < total i

/-- What comes before a number in a range is the range up to it. -/
theorem eq_range_of_range_eq {front back : List Nat} (h : List.range n = front ++ w :: back) :
    front = List.range w := by
  have hw : (List.range n)[front.length]? = some w := by simp [h]
  obtain ⟨hlt, hlength⟩ := List.getElem?_eq_some_iff.1 hw
  rw [List.getElem_range] at hlength
  rw [List.length_range] at hlt
  have htake : (List.range n).take front.length = front := by rw [h, List.take_left']; rfl
  rw [← htake, hlength, List.take_range, Nat.min_eq_left (by omega)]

/-- The earliest of the least totals wins. -/
theorem winsAmong_of_minOn? (h : (List.range n).minOn? total = some w) : WinsAmong total n w := by
  have hmin := minOn?_eq_some_iff.1 h
  refine ⟨List.mem_range.1 hmin.mem, fun i hi => hmin.le i (List.mem_range.2 hi), ?_⟩
  obtain ⟨front, back, hrange, hfront, -⟩ := hmin
  rw [eq_range_of_range_eq hrange] at hfront
  exact fun i hi => hfront i (List.mem_range.2 hi)

/-- The winner among more entrants has no greater total. -/
theorem WinsAmong.total_le (h : WinsAmong total n w) (h' : WinsAmong total n' w') (hn : n ≤ n') :
    total w' ≤ total w :=
  h'.le w (Nat.lt_of_lt_of_le h.lt hn)

/-- If it has the same total, it is the same entrant. -/
theorem WinsAmong.eq_of_total_eq (h : WinsAmong total n w) (h' : WinsAmong total n' w')
    (heq : total w' = total w) : w' = w := by
  rcases Nat.lt_trichotomy w' w with hlt | rfl | hlt
  · have := h.lt_of_lt w' hlt
    omega
  · rfl
  · have := h'.lt_of_lt w hlt
    omega

end

section
variable {G : Type} [RandomSource G] {population : Population} (h : 0 < population.size)

/-- The source after a number of choices from a population. -/
def Population.sourceAfter (n : Nat) (g : G) : G :=
  (fun g => (drawBelow population.size h g).2)^[n] g

/-- The individual that is chosen from a population after a number of others, by its place. -/
def Population.choice (n : Nat) (g : G) : Fin population.size :=
  (drawBelow population.size h (Population.sourceAfter h n g)).1

/-- The choices are all that is drawn for them. -/
theorem Population.draws_choice (n : Nat) (g : G) :
    Draws g ((List.range n).map fun i => .below _ (Population.choice h i g))
      (Population.sourceAfter h n g) := by
  have hdraws := draws_times (draws_drawBelow h) n g
  rw [times_eq_map_range, List.map_map] at hdraws
  exact hdraws

theorem Population.times_draw (n : Nat) (g : G) :
    times n (population.draw h) g =
      ((List.range n).map fun i => population[Population.choice h i g],
        Population.sourceAfter h n g) :=
  times_eq_map_range (population.draw h) n g

/-- A tournament with a member is won by one of the entrants. -/
theorem exists_tournament_run {size : Int} (hsize : 1 ≤ size) (g : G) :
    ∃ w, WinsAmong (fun i => population[Population.choice h i g].total) size.toNat w ∧
      (tournament population size).run g =
        (.ok population[Population.choice h w g], Population.sourceAfter h size.toNat g) := by
  have hne : List.range size.toNat ≠ [] := List.ne_nil_of_length_pos (by simp; omega)
  obtain ⟨w, hw⟩ := Option.isSome_iff_exists.1
    (List.isSome_minOn?_iff (f := fun i => population[Population.choice h i g].total).2 hne)
  have hwinner : ((List.range size.toNat).map fun i =>
      population[Population.choice h i g]).minOn? (·.total) =
        some population[Population.choice h w g] := by
    rw [minOn?_map, hw, Option.map_some]
  refine ⟨w, winsAmong_of_minOn? hw, ?_⟩
  rw [tournament, dif_pos h, if_neg (by omega), Breeding.run_lift_bind, Population.times_draw]
  simp only [hwinner]
  rfl

end

/-- Successive choices from a population decide all tournaments that start from a source: one of
`size` entrants makes the first `size` choices and draws nothing else, and the first of these that
has the least total wins. With more entrants the total of the winner is no greater, and if it is the
same, then the winner is the same choice. -/
theorem tournament_choices {G : Type} [RandomSource G] (population : Population)
    (h : 0 < population.size) (g : G) :
    ∃ (choice : Nat → Fin population.size) (source : Nat → G) (winner : Int → Nat),
      (∀ n, Draws g ((List.range n).map fun i => .below population.size (choice i)) (source n)) ∧
      (∀ size, 1 ≤ size →
        WinsAmong (fun i => population[choice i].total) size.toNat (winner size) ∧
        (tournament population size).run g =
          (.ok population[choice (winner size)], source size.toNat)) ∧
      ∀ size size', 1 ≤ size → size ≤ size' →
        population[choice (winner size')].total ≤ population[choice (winner size)].total ∧
        (population[choice (winner size')].total = population[choice (winner size)].total →
          winner size' = winner size) := by
  have hrun (size : Int) (hsize : 1 ≤ size) := exists_tournament_run h hsize g
  choose! winner hwins hrun using hrun
  refine ⟨fun i => Population.choice h i g, fun n => Population.sourceAfter h n g, winner,
    fun n => Population.draws_choice h n g, fun size hsize => ⟨hwins size hsize, hrun size hsize⟩,
    fun size size' hsize hle => ?_⟩
  have hwins' := hwins size' (Int.le_trans hsize hle)
  exact ⟨(hwins size hsize).total_le hwins' (Int.toNat_le_toNat hle),
    (hwins size hsize).eq_of_total_eq hwins'⟩

/-- Of two individuals that are equally good the first one chosen wins a tournament of five. The
record of the source shows five choices between the two, and nothing else. -/
theorem tournament_choices_tied :
    0 < Array.size (#[⟨[.int 1], [], 4⟩, ⟨[.int 2], [], 4⟩] : Population) ∧
    ∃ (choices : List (Fin 2)) (first : Fin 2) (g : Recorded Twister),
      choices.length = 5 ∧ choices.head? = some first ∧
      g.record = choices.map (.below 2) ∧
      (tournament #[⟨[.int 1], [], 4⟩, ⟨[.int 2], [], 4⟩] 5).run ⟨Twister.ofSeed 0, []⟩ =
        (.ok (#[⟨[.int 1], [], 4⟩, ⟨[.int 2], [], 4⟩] : Population)[first], g) := by
  have hpos : 0 < Array.size (#[⟨[.int 1], [], 4⟩, ⟨[.int 2], [], 4⟩] : Population) := by decide
  obtain ⟨choice, source, winner, hdraws, hwinner, -⟩ :=
    tournament_choices (G := Recorded Twister) _ hpos ⟨.ofSeed 0, []⟩
  obtain ⟨hwins, hrun⟩ := hwinner 5 (by decide)
  have htotal (i : Fin 2) :
      (#[⟨[.int 1], [], 4⟩, ⟨[.int 2], [], 4⟩] : Population)[i].total = 4 := by
    revert i
    decide
  have hfirst : winner 5 = 0 := by
    by_contra hne
    have hlt := hwins.lt_of_lt 0 (Nat.pos_of_ne_zero hne)
    exact absurd hlt (by rw [htotal, htotal]; exact Int.lt_irrefl 4)
  simp only [hfirst] at hrun
  exact ⟨hpos, (List.range 5).map choice, choice 0, source 5, rfl, rfl,
    by rw [(hdraws 5).record_eq, List.nil_append, List.map_map]; rfl, hrun⟩

end StackBreeder
