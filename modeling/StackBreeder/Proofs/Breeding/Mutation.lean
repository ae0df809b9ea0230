import StackBreeder.Proofs.Breeding.Inheritance
import StackBreeder.Proofs.Random.Record
import StackBreeder.Random.Twister

/-!
# Additions and deletions

An addition looks at the places of a program one after the other, those before its items and the
one at its end. For each of them it draws a number, and, where this is less than the rate, the index
of an item of the palette that is put there: a `Gap` holds what is drawn for a place, and the new
program consists of the old one and of what is in the gaps (`exists_addition_run`). Without a
palette the addition goes well only as long as there is nothing to add (`addition_run_nil`).

A deletion draws one number for each item and keeps those whose number is not less than the rate
(`retain_eq`). At a rate between zero and one each item can be kept or dropped, so that every part
of a program in its order is what some numbers leave of it (`exists_retain_eq`). As an addition
keeps the items of a program in their order (`sublist_of_addition_run`), there are numbers from
which a deletion undoes it (`mutation_draws`).
-/

namespace StackBreeder

/-! ## Addition -/

/-- What is drawn for a place where an item may be added: a number of the unit interval, and, just
if this is less than the rate, the index of an item. -/
structure Gap (palette : Palette) (rate : Rat) where
  draw : Rat
  pick? : Option (Fin palette.length)
  isSome_pick?_iff : pick?.isSome = true ↔ draw < rate

section
variable {G : Type} [RandomSource G] {palette : Palette} {rate : Rat} {v : Value} {p : Program}

namespace Gap

/-- The draws for a place, in their order. -/
def draws (gap : Gap palette rate) : List Draw :=
  .unit gap.draw :: (gap.pick?.map (Draw.below palette.length)).toList

/-- What is added, one item at most. -/
def items (gap : Gap palette rate) : Program := (gap.pick?.map palette.get).toList

end Gap

/-- What is in the gaps before the items of a program, with the items. -/
def fill (gaps : List (Gap palette rate)) (p : Program) : Program :=
  (List.zipWith (fun gap item => gap.items ++ [item]) gaps p).flatten

theorem fill_cons (gap : Gap palette rate) (gaps : List (Gap palette rate)) (v : Value)
    (p : Program) : fill (gap :: gaps) (v :: p) = gap.items ++ v :: fill gaps p := by
  simp [fill]

/-- Addition to no items looks at one place. -/
theorem addition_nil (palette : Palette) (rate : Rat) :
    (addition palette rate [] : Breeding G Program) = insertion palette rate := by
  simp [addition]

/-- Addition to a program goes on behind its first item. -/
theorem addition_cons (palette : Palette) (rate : Rat) (v : Value) (p : Program) :
    (addition palette rate (v :: p) : Breeding G Program) = (do
      let added ← insertion palette rate
      let rest ← addition palette rate p
      pure (added ++ v :: rest)) := by
  simp only [addition, List.mapM_cons, bind_assoc, pure_bind, List.flatten_cons, List.append_assoc,
    List.cons_append, List.nil_append]

/-- The item that is drawn is the one at the index that is drawn. -/
theorem Palette.draw_run (h : 0 < palette.length) (g : G) :
    (palette.draw : Breeding G Value).run g =
      (.ok (palette.get (drawBelow palette.length h g).1), (drawBelow palette.length h g).2) := by
  rw [draw, dif_pos h, Breeding.run_lift_bind]
  rfl

/-- With a palette that has an item, whatever is drawn makes a gap. -/
theorem exists_insertion_run (h : palette ≠ []) (rate : Rat) (g : G) :
    ∃ (gap : Gap palette rate) (g' : G), Draws g gap.draws g' ∧
      (insertion palette rate).run g = (.ok gap.items, g') := by
  have hpos := List.length_pos_iff.2 h
  by_cases hd : (drawUnit g).1 < rate
  · refine ⟨⟨(drawUnit g).1, some (drawBelow _ hpos (drawUnit g).2).1, by simp [hd]⟩, _,
      (draws_drawUnit g).append (draws_drawBelow hpos _), ?_⟩
    rw [insertion, Breeding.run_lift_bind, if_pos hd,
      Breeding.run_bind_of_ok (palette.draw_run hpos _)]
    rfl
  · refine ⟨⟨(drawUnit g).1, none, by simpa using hd⟩, _, draws_drawUnit g, ?_⟩
    rw [insertion, Breeding.run_lift_bind, if_neg hd]
    rfl

/-- An addition draws for one gap after the other, and the gaps with the items between them are what
comes out. -/
theorem exists_addition_run (h : palette ≠ []) (rate : Rat) (p : Program) (g : G) :
    ∃ (gaps : List (Gap palette rate)) (last : Gap palette rate) (g' : G),
      gaps.length = p.length ∧ Draws g ((gaps ++ [last]).flatMap Gap.draws) g' ∧
      (addition palette rate p).run g = (.ok (fill gaps p ++ last.items), g') := by
  induction p generalizing g with
  | nil =>
    obtain ⟨last, g', hdraws, hrun⟩ := exists_insertion_run h rate g
    exact ⟨[], last, g', rfl, by simpa using hdraws, by rw [addition_nil, hrun]; rfl⟩
  | cons v p ih =>
    obtain ⟨gap, g', hdraws, hrun⟩ := exists_insertion_run h rate g
    obtain ⟨gaps, last, g'', hlength, hdraws', hrun'⟩ := ih g'
    refine ⟨gap :: gaps, last, g'', congrArg (· + 1) hlength, hdraws.append hdraws', ?_⟩
    rw [addition_cons, Breeding.run_bind_of_ok hrun, Breeding.run_bind_of_ok hrun', fill_cons,
      List.append_assoc, List.cons_append]
    rfl

/-- Gaps leave the items between them in their order. -/
theorem sublist_fill {gaps : List (Gap palette rate)} (h : gaps.length = p.length) :
    p.Sublist (fill gaps p) := by
  induction p generalizing gaps with
  | nil => exact List.nil_sublist _
  | cons v p ih =>
    cases gaps with
    | nil => cases h
    | cons gap gaps =>
      rw [fill_cons]
      exact ((ih (Nat.succ.inj h)).cons_cons v).trans (List.sublist_append_right _ _)

/-! ### Without a palette -/

/-- Where the palette has nothing to draw, a number that is less than the rate is a failure. -/
theorem insertion_run_nil (rate : Rat) (g : G) :
    (insertion [] rate).run g =
      if (drawUnit g).1 < rate then (.error .nothingToDraw, (drawUnit g).2)
      else (.ok [], (drawUnit g).2) := by
  rw [insertion, Breeding.run_lift_bind]
  split <;> rfl

/-- Without a palette an addition fails if there is something to add. -/
theorem addition_run_nil (rate : Rat) (p : Program) (g : G) :
    ((addition [] rate p).run g).1 =
      if (times (p.length + 1) drawUnit g).1.any (· < rate) then .error .nothingToDraw
      else .ok p := by
  induction p generalizing g with
  | nil =>
    rw [addition_nil, insertion_run_nil, List.length_nil, times_succ_run, times_zero]
    show _ = if [(drawUnit g).1].any (· < rate) then _ else _
    by_cases hd : (drawUnit g).1 < rate
    · simp [hd]
    · simp [hd]
  | cons v p ih =>
    rw [addition_cons, List.length_cons, times_succ_run]
    by_cases hd : (drawUnit g).1 < rate
    · have hrun : (insertion [] rate).run g = (.error .nothingToDraw, (drawUnit g).2) := by
        rw [insertion_run_nil, if_pos hd]
      rw [Breeding.run_bind_of_error hrun]
      simp [hd]
    · have hrun : (insertion [] rate).run g = (.ok [], (drawUnit g).2) := by
        rw [insertion_run_nil, if_neg hd]
      rw [Breeding.run_bind_of_ok hrun, bind_pure_comp, Breeding.run_map_fst, ih, List.any_cons,
        decide_eq_false hd, Bool.false_or]
      split <;> rfl

/-- An addition leaves the items of the program in their order. -/
theorem sublist_of_addition_run {g g' : G} {child : Program}
    (h : (addition palette rate p).run g = (.ok child, g')) : p.Sublist child := by
  by_cases hpalette : palette = []
  · subst hpalette
    have hrun := addition_run_nil rate p g
    rw [h] at hrun
    split at hrun
    · cases hrun
    · cases hrun
      exact List.Sublist.refl _
  · obtain ⟨gaps, last, g'', hlength, -, hrun⟩ := exists_addition_run hpalette rate p g
    rw [hrun] at h
    cases h
    exact (sublist_fill hlength).trans (List.sublist_append_left _ _)

/-! ## Deletion -/

/-- What is left are the items whose draws are not less than the rate. -/
theorem retain_eq (rate : Rat) (ds : List Rat) (p : Program) :
    retain rate ds p = ((ds.zip p).filter fun dv => rate ≤ dv.1).map (·.2) := by
  fun_induction retain rate ds p with
  | case1 d ds v p h ih => simp [ih, Rat.not_le.2 h]
  | case2 d ds v p h ih => simp [ih, Rat.not_lt.1 h]
  | case3 ds p h =>
    cases ds with
    | nil => rfl
    | cons d ds =>
      cases p with
      | nil => rfl
      | cons v p => exact absurd rfl (h d ds v p rfl)

theorem retain_sublist_of_le {rate rate' : Rat} (h : rate ≤ rate') (ds : List Rat) (p : Program) :
    (retain rate' ds p).Sublist (retain rate ds p) := by
  rw [retain_eq, retain_eq]
  refine (List.monotone_filter_right _ fun dv hdv => ?_).map _
  exact decide_eq_true (Rat.le_trans h (of_decide_eq_true hdv))

/-- Whatever is to be left of a program, some draws leave it. -/
theorem exists_retain_eq {rate : Rat} (hpos : 0 < rate) (hlt : rate < 1) {p child : Program}
    (h : p.Sublist child) :
    ∃ ds : List Rat, ds.length = child.length ∧ (∀ d ∈ ds, 0 ≤ d ∧ d < 1) ∧
      retain rate ds child = p := by
  have hkeep (choice : Bool) : ∃ d : Rat, (0 ≤ d ∧ d < 1) ∧ decide (rate ≤ d) = choice := by
    cases choice with
    | true => exact ⟨rate, ⟨Rat.le_of_lt hpos, hlt⟩, decide_eq_true Rat.le_refl⟩
    | false => exact ⟨0, by decide +kernel, decide_eq_false (Rat.not_le.2 hpos)⟩
  simp only [retain_eq]
  exact exists_filter_zip_eq hkeep h

/-- The numbers that a source gives decide what is left. -/
theorem Draws.deletion {g g' : G} {ds : List Rat} (h : Draws g (ds.map .unit) g')
    (hlength : ds.length = p.length) (rate : Rat) :
    (deletion rate p).run g = (retain rate ds p, g') := by
  show (retain rate (times _ drawUnit g).1 p, (times _ drawUnit g).2) = _
  rw [← hlength, h.times_drawUnit]

theorem exists_deletion_run (rate : Rat) (p : Program) (g : G) :
    ∃ (ds : List Rat) (g' : G), ds.length = p.length ∧ Draws g (ds.map .unit) g' ∧
      (deletion rate p).run g = (((ds.zip p).filter fun dv => rate ≤ dv.1).map (·.2), g') := by
  obtain ⟨ds, g', hlength, hdraws⟩ := exists_draws_unit p.length g
  exact ⟨ds, g', hlength, hdraws, by rw [hdraws.deletion hlength, retain_eq]⟩

/-- At a larger rate a deletion keeps only some of what it keeps at a smaller one. -/
theorem deletion_sublist {rate rate' : Rat} (hle : rate ≤ rate') (p : Program) (g : G) :
    ((deletion rate' p).run g).1.Sublist ((deletion rate p).run g).1 := by
  obtain ⟨ds, g', hlength, hdraws⟩ := exists_draws_unit p.length g
  rw [hdraws.deletion hlength, hdraws.deletion hlength]
  exact retain_sublist_of_le hle ds p

end

/-- Addition with a palette that has an item draws a number of the unit interval for the place
before each item and for the end, and behind each of those that are less than the rate the index of
the item of the palette that is put there. Without a palette it fails exactly if one of the numbers
is less than the rate. Deletion draws a number for each item, and keeps the items, in their order,
whose number is not less than the rate; so a larger rate keeps only some of what a smaller one
keeps. And at every rate between zero and one there are numbers from which deletion takes away just
what an addition has put in. -/
theorem mutation_draws :
    (∀ {palette : Palette} (rate : Rat) (p : Program), palette ≠ [] →
      ∀ {G : Type} [RandomSource G] (g : G),
        ∃ (gaps : List (Gap palette rate)) (last : Gap palette rate) (child : Program) (g' : G),
          gaps.length = p.length ∧ Draws g ((gaps ++ [last]).flatMap Gap.draws) g' ∧
          (addition palette rate p).run g = (.ok child, g') ∧
          child = fill gaps p ++ last.items ∧ p.Sublist child ∧
          p.length ≤ child.length ∧ child.length ≤ 2 * p.length + 1) ∧
    (∀ (rate : Rat) (p : Program) {G : Type} [RandomSource G] (g : G),
      (∃ e, ((addition [] rate p).run g).1 = .error e) ↔
        ∃ d ∈ (times (p.length + 1) drawUnit g).1, d < rate) ∧
    (∀ (rate : Rat) (p : Program) {G : Type} [RandomSource G] (g : G),
      ∃ (ds : List Rat) (g' : G), ds.length = p.length ∧ Draws g (ds.map .unit) g' ∧
        (deletion rate p).run g = (((ds.zip p).filter fun dv => rate ≤ dv.1).map (·.2), g')) ∧
    (∀ (rate rate' : Rat), rate ≤ rate' → ∀ (p : Program) {G : Type} [RandomSource G] (g : G),
      ((deletion rate' p).run g).1.Sublist ((deletion rate p).run g).1) ∧
    ∀ (palette : Palette) (rate : Rat) (p child : Program) {G : Type} [RandomSource G] (g g' : G),
      (addition palette rate p).run g = (.ok child, g') →
      ∀ rate', 0 < rate' → rate' < 1 →
        ∃ ds : List Rat, ds.length = child.length ∧ (∀ d ∈ ds, 0 ≤ d ∧ d < 1) ∧
          ∀ {H : Type} [RandomSource H] (h : H),
            (deletion rate' child).run (⟨ds, h⟩ : Script H) = (p, ⟨[], h⟩) := by
  refine ⟨fun {palette} rate p hpalette {G} _ g => ?_, fun rate p {G} _ g => ?_,
    fun rate p => exists_deletion_run rate p, fun rate rate' hle p => deletion_sublist hle p,
    fun palette rate p child {G} _ g g' hrun rate' hpos hlt => ?_⟩
  · obtain ⟨gaps, last, g', hlength, hdraws, hrun⟩ := exists_addition_run hpalette rate p g
    obtain ⟨hle, -⟩ := (addition_yields hpalette rate p).of_run hrun
    have hsublist := sublist_of_addition_run hrun
    exact ⟨gaps, last, _, g', hlength, hdraws, hrun, rfl, hsublist, hsublist.length_le, hle⟩
  · rw [addition_run_nil]
    split
    · next hany => simpa using hany
    · next hany => simpa using hany
  · obtain ⟨ds, hlength, hunit, hretain⟩ :=
      exists_retain_eq hpos hlt (sublist_of_addition_run hrun)
    refine ⟨ds, hlength, hunit, fun {H} _ h => ?_⟩
    rw [(Script.draws_unit ds h).deletion hlength, hretain]

/-- Items are added to two. The record of the source shows what was drawn for the three places, and
some numbers restore the two items at a rate of one twentieth, of which the same numbers keep only
some at a rate of one half. -/
theorem mutation_draws_two :
    [Value.int 7] ≠ [] ∧ (0 : Rat) < 1 / 20 ∧ (1 / 20 : Rat) < 1 ∧ (1 / 20 : Rat) ≤ 1 / 2 ∧
    ∃ (gaps : List (Gap [Value.int 7] (1 / 2))) (child : Program) (g : Recorded Twister)
      (ds : List Rat),
      gaps.length = 3 ∧ g.record = gaps.flatMap Gap.draws ∧
      (addition [.int 7] (1 / 2) [.int 1, .int 2]).run ⟨Twister.ofSeed 0, []⟩ = (.ok child, g) ∧
      (deletion (1 / 20) child).run (⟨ds, g⟩ : Script (Recorded Twister)) =
        ([.int 1, .int 2], ⟨[], g⟩) ∧
      ((deletion (1 / 2) child).run (⟨ds, g⟩ : Script (Recorded Twister))).1.Sublist
        [.int 1, .int 2] := by
  have hpos : (0 : Rat) < 1 / 20 := by decide +kernel
  have hlt : (1 / 20 : Rat) < 1 := by decide +kernel
  have hle : (1 / 20 : Rat) ≤ 1 / 2 := by decide +kernel
  have hpalette : [Value.int 7] ≠ [] := by decide
  obtain ⟨hadd, -, -, hsublist, hundo⟩ := mutation_draws
  obtain ⟨gaps, last, child, g, hlength, hdraws, hrun, -⟩ :=
    hadd (1 / 2) [.int 1, .int 2] hpalette (⟨Twister.ofSeed 0, []⟩ : Recorded Twister)
  obtain ⟨ds, -, -, hrestore⟩ := hundo _ _ _ _ _ _ hrun (1 / 20) hpos hlt
  have hkept := hsublist (1 / 20) (1 / 2) hle child (⟨ds, g⟩ : Script (Recorded Twister))
  rw [hrestore g] at hkept
  refine ⟨hpalette, hpos, hlt, hle, gaps ++ [last], child, g, ds, ?_, hdraws.record_eq, hrun,
    hrestore g, hkept⟩
  rw [List.length_append, hlength]
  rfl

end StackBreeder
