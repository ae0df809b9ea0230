import Mathlib.Data.List.Forall2
import Mathlib.Data.List.Zip
import StackBreeder.Proofs.Breeding.Inheritance
import StackBreeder.Proofs.Random.Record
import StackBreeder.Random.Twister

/-!
# Recombination

A child of two programs has two parts (`recombine_eq_append`). The first one is a mixture of what
both parents have (`mix`): at each of the places that both have, the item of one of them. The second
one consists of some of what the longer parent has beyond that (`surplus`), in its order. Which
items these are is for the draws to say, one for each item of the longer parent (`Recombines`), and
since they can fall on either side of one half, every child of this form has draws that lead to it
(`exists_recombine_eq`). Crossover draws these numbers and nothing else (`crossover_recombines`).
-/

namespace StackBreeder

section
variable {d : Rat} {ds front front' back : List Rat} {a b p x t : Program}

/-! ## The two parts of a child -/

/-- The longer one of two programs. -/
def longer (a b : Program) : Program := if b.length < a.length then a else b

theorem length_longer (a b : Program) : (longer a b).length = max a.length b.length := by
  rw [longer]
  split <;> omega

/-- What the longer one of two programs has beyond the end of the shorter one. -/
def surplus (a b : Program) : Program := (longer a b).drop (min a.length b.length)

theorem surplus_cons (v w : Value) (a b : Program) : surplus (v :: a) (w :: b) = surplus a b := by
  simp only [surplus, longer, List.length_cons, Nat.add_lt_add_iff_right, Nat.add_min_add_right]
  split <;> rfl

theorem surplus_nil_right (a : Program) : surplus a [] = a := by
  cases a <;> rfl

theorem surplus_nil_left (b : Program) : surplus [] b = b := by
  simp [surplus, longer]

theorem length_surplus (a b : Program) :
    (surplus a b).length = max a.length b.length - min a.length b.length := by
  rw [surplus, List.length_drop, length_longer]

/-- The order of the two programs does not matter. -/
theorem surplus_comm (a b : Program) : surplus b a = surplus a b := by
  induction a generalizing b with
  | nil => rw [surplus_nil_left, surplus_nil_right]
  | cons v a ih =>
    cases b with
    | nil => rw [surplus_nil_left, surplus_nil_right]
    | cons w b => rw [surplus_cons, surplus_cons, ih]

/-- One item of each of the pairs, the first one where the draw favours it. -/
def mix (ds : List Rat) (pairs : List (Value × Value)) : Program :=
  List.zipWith (fun d vw => if favours d then vw.1 else vw.2) ds pairs

/-- What is kept are the items whose draws are favourable. -/
theorem keepFavoured_eq (ds : List Rat) (p : Program) :
    keepFavoured ds p = ((ds.zip p).filter fun dv => favours dv.1).map (·.2) := by
  fun_induction keepFavoured ds p with
  | case1 d ds v p h ih => simp [ih, h]
  | case2 d ds v p h ih => simp [ih, h]
  | case3 ds p h =>
    cases ds with
    | nil => rfl
    | cons d ds =>
      cases p with
      | nil => rfl
      | cons v p => exact absurd rfl (h d ds v p rfl)

/-- A child is a mixture of what both parents have, and behind that some of what the longer one has
beyond it. -/
theorem recombine_eq_append (ds : List Rat) (a b : Program) :
    recombine ds a b =
      mix ds (a.zip b) ++ keepFavoured (ds.drop (min a.length b.length)) (surplus a b) := by
  fun_induction recombine ds a b with
  | case1 d ds v a w b ih =>
    rw [ih, surplus_cons, List.length_cons, List.length_cons, Nat.add_min_add_right,
      List.drop_succ_cons]
    rfl
  | case2 ds a => simp [mix, surplus_nil_right]
  | case3 ds b => simp [mix, surplus_nil_left]
  | case4 v a w b => simp [mix, keepFavoured]

/-- The draw at a place decides between the items at that place. -/
theorem mix_getElem? {i : Nat} {v w : Value} (hd : ds[i]? = some d) (hv : a[i]? = some v)
    (hw : b[i]? = some w) : (mix ds (a.zip b))[i]? = some (if d < 1 / 2 then v else w) := by
  have hpair : (a.zip b)[i]? = some (v, w) := List.getElem?_zip_eq_some.2 ⟨hv, hw⟩
  rw [mix, List.getElem?_zipWith, hd, hpair]
  simp only [favours, decide_eq_true_eq]

/-- Draws behind those for the pairs do not matter. -/
theorem mix_append {pairs : List (Value × Value)} (h : front.length = pairs.length) :
    mix (front ++ back) pairs = mix front pairs := by
  induction front generalizing pairs with
  | nil =>
    rw [List.eq_nil_of_length_eq_zero h.symm]
    simp [mix]
  | cons d front ih =>
    cases pairs with
    | nil => cases h
    | cons vw pairs => exact congrArg (_ :: ·) (ih (Nat.succ.inj h))

/-- A draw on the other side of one half decides the other way. -/
theorem favours_eq_not {d' : Rat} (h : d' < 1 / 2 ↔ ¬d < 1 / 2) : favours d' = !favours d := by
  rw [favours, favours, ← decide_not, decide_eq_decide]
  exact h

/-- With the two items of each pair exchanged and every draw on the other side of one half, the same
items are taken. -/
theorem mix_swap {pairs : List (Value × Value)}
    (h : List.Forall₂ (fun d d' => d' < 1 / 2 ↔ ¬d < 1 / 2) front front') :
    mix front' (pairs.map Prod.swap) = mix front pairs := by
  induction h generalizing pairs with
  | nil => rfl
  | cons hd _ ih =>
    cases pairs with
    | nil => rfl
    | cons vw pairs =>
      refine congrArg₂ (· :: ·) ?_ ih
      simp only [favours_eq_not hd]
      cases favours _ with
      | true => rfl
      | false => rfl

/-! ## Draws for a given child -/

/-- There are draws of the unit interval for either choice. -/
theorem exists_favours_eq (choice : Bool) : ∃ d : Rat, (0 ≤ d ∧ d < 1) ∧ favours d = choice := by
  cases choice with
  | true => exact ⟨0, by decide +kernel, by decide +kernel⟩
  | false => exact ⟨1 / 2, by decide +kernel, by decide +kernel⟩

/-- Any choice of one item from each pair is the choice of some draws. -/
theorem exists_mix {pairs : List (Value × Value)}
    (h : List.Forall₂ (fun y vw => y = vw.1 ∨ y = vw.2) x pairs) :
    ∃ ds : List Rat, ds.length = pairs.length ∧ (∀ d ∈ ds, 0 ≤ d ∧ d < 1) ∧ mix ds pairs = x := by
  induction h with
  | nil => exact ⟨[], rfl, nofun, rfl⟩
  | @cons y vw x pairs hy _ ih =>
    obtain ⟨ds, hlength, hds, rfl⟩ := ih
    obtain ⟨d, hd, hchoice⟩ := exists_favours_eq (decide (y = vw.1))
    refine ⟨d :: ds, congrArg (· + 1) hlength, List.forall_mem_cons.2 ⟨hd, hds⟩, ?_⟩
    refine congrArg₂ (· :: ·) ?_ rfl
    by_cases hfirst : y = vw.1
    · simp [hchoice, hfirst]
    · simp only [hchoice, decide_eq_true_eq, if_neg hfirst]
      exact (hy.resolve_left hfirst).symm

/-- Every child that a recombination may have is the child under some draws. -/
theorem exists_recombine_eq (hx : List.Forall₂ (fun y vw => y = vw.1 ∨ y = vw.2) x (a.zip b))
    (ht : t.Sublist (surplus a b)) :
    ∃ ds : List Rat, ds.length = max a.length b.length ∧ (∀ d ∈ ds, 0 ≤ d ∧ d < 1) ∧
      recombine ds a b = x ++ t := by
  obtain ⟨front, hfront, hunit, rfl⟩ := exists_mix hx
  obtain ⟨back, hback, hunit', hkept⟩ := exists_filter_zip_eq exists_favours_eq ht
  have hzip : (a.zip b).length = min a.length b.length := List.length_zip
  refine ⟨front ++ back, ?_, List.forall_mem_append.2 ⟨hunit, hunit'⟩, ?_⟩
  · rw [List.length_append, hfront, hback, hzip, length_surplus]
    omega
  · rw [recombine_eq_append, mix_append hfront, ← hzip, ← hfront, List.drop_left, keepFavoured_eq]
    exact congrArg (_ ++ ·) hkept

/-- A program that is crossed with itself is what comes out. -/
theorem recombine_self (h : p.length ≤ ds.length) : recombine ds p p = p := by
  induction p generalizing ds with
  | nil => simp [recombine, keepFavoured]
  | cons v p ih =>
    cases ds with
    | nil => cases h
    | cons d ds =>
      rw [recombine, ite_self, ih (Nat.le_of_succ_le_succ h)]

/-- The parents change places, and every draw that decides between them goes to the other side of
one half. -/
theorem recombine_swap (hlength : front.length = min a.length b.length)
    (h : List.Forall₂ (fun d d' => d' < 1 / 2 ↔ ¬d < 1 / 2) front front') :
    recombine (front' ++ back) b a = recombine (front ++ back) a b := by
  have hlength' : front'.length = min b.length a.length := by
    rw [← h.length_eq, hlength, Nat.min_comm]
  rw [recombine_eq_append, recombine_eq_append, surplus_comm, ← hlength, ← hlength',
    List.drop_left, List.drop_left, mix_append (by rw [hlength', List.length_zip]),
    mix_append (by rw [hlength, List.length_zip]), ← List.zip_swap, mix_swap h]

end

/-! ## Crossover -/

/-- The two parts of the child that draws make of two programs. Where both have an item, the draw
decides between the two; of what the longer one has beyond that, the items are kept whose draws are
less than one half. -/
structure Recombines (ds : List Rat) (a b x t : Program) : Prop where
  length_eq : x.length = min a.length b.length
  getElem?_eq : ∀ (i : Nat) d v w, ds[i]? = some d → a[i]? = some v → b[i]? = some w →
    x[i]? = some (if d < 1 / 2 then v else w)
  rest_eq : t = (((ds.drop (min a.length b.length)).zip
    ((longer a b).drop (min a.length b.length))).filter fun dv => dv.1 < 1 / 2).map (·.2)

section
variable {G : Type} [RandomSource G] {g g' : G} {ds front front' back : List Rat}
  {a b x t : Program}

theorem exists_recombines (h : ds.length = max a.length b.length) :
    ∃ x t, recombine ds a b = x ++ t ∧ Recombines ds a b x t := by
  refine ⟨_, _, recombine_eq_append ds a b, ?_, fun i d v w => mix_getElem?, keepFavoured_eq _ _⟩
  rw [mix, List.length_zipWith, List.length_zip]
  omega

/-- The numbers that a source gives decide the child. -/
theorem Draws.crossover (h : Draws g (ds.map .unit) g')
    (hlength : ds.length = max a.length b.length) :
    (crossover a b).run g = (recombine ds a b, g') := by
  show (recombine (times _ drawUnit g).1 a b, (times _ drawUnit g).2) = _
  rw [← hlength, h.times_drawUnit]

theorem crossover_run_script (h : ds.length = max a.length b.length) (g : G) :
    (crossover a b).run (⟨ds, g⟩ : Script G) = (recombine ds a b, ⟨[], g⟩) :=
  (Script.draws_unit ds g).crossover h

/-- The child consists of two parts, of which the first one has its length from the shorter parent
and both together are no longer than the longer one. -/
theorem exists_crossover_run (a b : Program) (g : G) :
    ∃ ds g' x t, ds.length = max a.length b.length ∧ Draws g (ds.map .unit) g' ∧
      (crossover a b).run g = (x ++ t, g') ∧ Recombines ds a b x t ∧
      min a.length b.length ≤ (x ++ t).length ∧ (x ++ t).length ≤ max a.length b.length := by
  obtain ⟨ds, g', hlength, hdraws⟩ := exists_draws_unit (max a.length b.length) g
  obtain ⟨x, t, hchild, hparts⟩ := exists_recombines hlength
  have hle : (recombine ds a b).length ≤ max a.length b.length := length_recombine_le
  refine ⟨ds, g', x, t, hlength, hdraws, ?_, hparts, ?_, hchild ▸ hle⟩
  · rw [hdraws.crossover hlength, hchild]
  · rw [List.length_append, hparts.length_eq]
    exact Nat.le_add_right _ _

/-- A program that is crossed with itself comes out unchanged. -/
theorem crossover_self (a : Program) (g : G) : ((crossover a a).run g).1 = a := by
  obtain ⟨ds, g', hlength, hdraws⟩ := exists_draws_unit (max a.length a.length) g
  rw [hdraws.crossover hlength, recombine_self (by omega)]

/-- With the parents exchanged, the same child comes from the opposite draws. -/
theorem crossover_swap (hfront : front.length = min a.length b.length)
    (hback : back.length = max a.length b.length - min a.length b.length)
    (h : List.Forall₂ (fun d d' => d' < 1 / 2 ↔ ¬d < 1 / 2) front front') (g : G) :
    (crossover b a).run (⟨front' ++ back, g⟩ : Script G) =
      (crossover a b).run (⟨front ++ back, g⟩ : Script G) := by
  have hlength := h.length_eq
  rw [crossover_run_script (by rw [List.length_append]; omega),
    crossover_run_script (by rw [List.length_append]; omega), recombine_swap hfront h]

end

/-- Crossover draws one number of the unit interval for each item of the longer parent and nothing
else, and the numbers decide the child. Conversely every child that has one item of the two at each
place where both parents have one, and behind that some of what is left of the longer one, in its
order, comes from some numbers of the unit interval. A program that is crossed with itself comes out
unchanged, whatever is drawn; and if the parents change places, and every number that decides
between the two goes to the other side of one half, then the child is the same. -/
theorem crossover_recombines (a b : Program) :
    (∀ {G : Type} [RandomSource G] (g : G), ∃ ds g' x t,
      ds.length = max a.length b.length ∧ Draws g (ds.map .unit) g' ∧
      (crossover a b).run g = (x ++ t, g') ∧ Recombines ds a b x t ∧
      min a.length b.length ≤ (x ++ t).length ∧ (x ++ t).length ≤ max a.length b.length) ∧
    (∀ x t : Program, List.Forall₂ (fun y vw => y = vw.1 ∨ y = vw.2) x (a.zip b) →
      t.Sublist ((longer a b).drop (min a.length b.length)) →
      ∃ ds : List Rat, ds.length = max a.length b.length ∧ (∀ d ∈ ds, 0 ≤ d ∧ d < 1) ∧
        ∀ {G : Type} [RandomSource G] (g : G),
          (crossover a b).run (⟨ds, g⟩ : Script G) = (x ++ t, ⟨[], g⟩)) ∧
    (∀ {G : Type} [RandomSource G] (g : G), ((crossover a a).run g).1 = a) ∧
    ∀ front front' back : List Rat, front.length = min a.length b.length →
      back.length = max a.length b.length - min a.length b.length →
      List.Forall₂ (fun d d' => d' < 1 / 2 ↔ ¬d < 1 / 2) front front' →
      ∀ {G : Type} [RandomSource G] (g : G),
        (crossover b a).run (⟨front' ++ back, g⟩ : Script G) =
          (crossover a b).run (⟨front ++ back, g⟩ : Script G) := by
  refine ⟨exists_crossover_run a b, fun x t hx ht => ?_, crossover_self a,
    fun front front' back hfront hback h => crossover_swap hfront hback h⟩
  obtain ⟨ds, hlength, hunit, hchild⟩ := exists_recombine_eq hx ht
  exact ⟨ds, hlength, hunit, fun g => by rw [crossover_run_script hlength, hchild]⟩

/-- Three items are crossed with one. The record of the source shows three numbers of the unit
interval; the second item can be left out and the third one kept; and with three quarters in place
of one quarter the parents may change places. -/
theorem crossover_recombines_unequal :
    (∃ (ds : List Rat) (child : Program) (g : Recorded Twister),
      ds.length = 3 ∧ g.record = ds.map .unit ∧
      (crossover [.int 1, .int 2, .int 3] [.int 4]).run ⟨Twister.ofSeed 0, []⟩ = (child, g)) ∧
    List.Forall₂ (fun y vw => y = vw.1 ∨ y = vw.2) [Value.int 4] [(.int 1, .int 4)] ∧
    List.Sublist [Value.int 3] [.int 2, .int 3] ∧
    (∃ ds : List Rat, ds.length = 3 ∧
      (crossover [.int 1, .int 2, .int 3] [.int 4]).run (⟨ds, .ofSeed 0⟩ : Script Twister) =
        ([.int 4, .int 3], ⟨[], .ofSeed 0⟩)) ∧
    List.Forall₂ (fun d d' : Rat => d' < 1 / 2 ↔ ¬d < 1 / 2) [1 / 4] [3 / 4] ∧
    (crossover [.int 4] [.int 1, .int 2, .int 3]).run
        (⟨[3 / 4, 0, 1 / 2], .ofSeed 0⟩ : Script Twister) =
      (crossover [.int 1, .int 2, .int 3] [.int 4]).run
        (⟨[1 / 4, 0, 1 / 2], .ofSeed 0⟩ : Script Twister) := by
  have hx : List.Forall₂ (fun y vw => y = vw.1 ∨ y = vw.2) [Value.int 4] [(.int 1, .int 4)] :=
    .cons (.inr rfl) .nil
  have ht : List.Sublist [Value.int 3] [.int 2, .int 3] := by decide
  have hopposite : List.Forall₂ (fun d d' : Rat => d' < 1 / 2 ↔ ¬d < 1 / 2) [1 / 4] [3 / 4] :=
    .cons (by decide +kernel) .nil
  obtain ⟨hdraws, hreach, -, hswap⟩ :=
    crossover_recombines [.int 1, .int 2, .int 3] [.int 4]
  obtain ⟨ds, g', x, t, hlength, hdraws, hrun, -⟩ :=
    hdraws (⟨.ofSeed 0, []⟩ : Recorded Twister)
  obtain ⟨ds', hlength', -, hrun'⟩ := hreach [.int 4] [.int 3] hx ht
  exact ⟨⟨ds, x ++ t, g', hlength, hdraws.record_eq, hrun⟩, hx, ht,
    ⟨ds', hlength', hrun' (Twister.ofSeed 0)⟩, hopposite,
    hswap [1 / 4] [3 / 4] [0, 1 / 2] rfl rfl hopposite (Twister.ofSeed 0)⟩

end StackBreeder
