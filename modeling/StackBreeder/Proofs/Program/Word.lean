import Mathlib.Data.List.Induction
import Mathlib.Data.Nat.Digits.Defs
import StackBreeder.Program.Reading

/-!
# Words and what they denote

A word is what stands between blanks, parentheses and double quotes. A word made of digits after
at most one sign is numeric. `Denotes` is the meaning of words: a numeric word whose digits are all
decimal denotes the integer written in the positional system, any other numeric word denotes
nothing, and a word that is not numeric denotes the symbol of that name. `Value.ofAtom` computes
this meaning (`ofAtom_eq_ok_iff`).

The numeral of an integer is a word that denotes it (`denotes_numeral`), and a symbol can be
written by its name exactly if the name is a word that is not numeric (`Readable`).
-/

namespace StackBreeder

/-! ## Numbers -/

namespace Text

/-- What may stand before the digits of a number, with the factor it contributes: nothing, or one
sign. -/
inductive Sign : (factor : Int) → List Char → Prop
  | none : Sign 1 []
  | plus : Sign 1 ['+']
  | minus : Sign (-1) ['-']

/-- A word made of digits, of either class, after at most one sign. -/
def IsNumeric (word : List Char) : Prop :=
  ∃ factor sign body, Sign factor sign ∧ body ≠ [] ∧ (∀ c ∈ body, isDigit c = true) ∧
    word = sign ++ body

/-- Digits write the number that they denote in the positional system, the last one being the
units. -/
theorem natural?_eq_some_iff {cs : List Char} {n : Nat} :
    natural? cs = some n ↔
      ∃ ds : List Nat, cs.map decimal? = ds.map some ∧ n = Nat.ofDigits 10 ds.reverse := by
  induction cs using List.reverseRecOn generalizing n with
  | nil =>
    constructor
    · intro h
      exact ⟨[], rfl, (Option.some.inj h).symm⟩
    · rintro ⟨ds, hds, rfl⟩
      obtain rfl : ds = [] := by simpa using hds
      rfl
  | append_singleton cs c ih =>
    rw [natural?_concat, Option.bind_eq_some_iff]
    constructor
    · rintro ⟨m, hm, hc⟩
      obtain ⟨ds, hds, rfl⟩ := ih.1 hm
      obtain ⟨d, hd, rfl⟩ := Option.map_eq_some_iff.1 hc
      refine ⟨ds ++ [d], by simp [hds, hd], ?_⟩
      rw [List.reverse_concat, Nat.ofDigits_cons, Nat.add_comm]
    · rintro ⟨ds, hds, rfl⟩
      rw [List.map_append, eq_comm, List.map_eq_append_iff] at hds
      obtain ⟨ds, last, rfl, hds, hlast⟩ := hds
      obtain ⟨d, rfl, hd⟩ : ∃ d, last = [d] ∧ some d = decimal? c := by
        simpa [List.map_eq_cons_iff] using hlast
      refine ⟨_, ih.2 ⟨ds, hds.symm, rfl⟩, ?_⟩
      rw [appendDigit?, ← hd, Option.map_some, List.reverse_concat, Nat.ofDigits_cons, Nat.add_comm]

/-- Digits write no number if one of them is not decimal. -/
theorem natural?_eq_none_iff {cs : List Char} :
    natural? cs = none ↔ ∃ c ∈ cs, isDecimal c = false := by
  induction cs using List.reverseRecOn with
  | nil => simp [natural?]
  | append_singleton cs c ih =>
    have hlast (n : Nat) : appendDigit? n c = none ↔ isDecimal c = false := by
      simp [appendDigit?, isDecimal]
    rw [natural?_concat, Option.bind_eq_none_iff]
    constructor
    · intro h
      cases hcs : natural? cs with
      | none =>
        obtain ⟨d, hd, hdecimal⟩ := ih.1 hcs
        exact ⟨d, List.mem_append_left _ hd, hdecimal⟩
      | some n => exact ⟨c, by simp, (hlast n).1 (h n hcs)⟩
    · rintro ⟨d, hd, hdecimal⟩ n hn
      rcases List.mem_append.1 hd with hd | hd
      · rw [ih.2 ⟨d, hd, hdecimal⟩] at hn
        cases hn
      · obtain rfl := List.mem_singleton.1 hd
        exact (hlast n).2 hdecimal

theorem isDigit_sign : isDigit '+' = false ∧ isDigit '-' = false := by decide

/-- A word is its sign, if it has one, and what follows it. -/
theorem exists_sign (word : List Char) :
    ∃ factor sign, Sign factor sign ∧ word = sign ++ (unsign word).2 ∧
      ∀ n : Nat, signed (unsign word).1 n = factor * n := by
  unfold unsign
  split
  · exact ⟨-1, ['-'], .minus, rfl, fun n => by simp [signed]⟩
  · exact ⟨1, ['+'], .plus, rfl, fun n => by simp [signed]⟩
  · exact ⟨1, [], .none, rfl, fun n => by simp [signed]⟩

/-- Before digits no more than the sign is taken off. -/
theorem unsign_append {factor : Int} {sign body : List Char} (hs : Sign factor sign)
    (hb : ∀ c ∈ body, isDigit c = true) :
    (unsign (sign ++ body)).2 = body ∧
      ∀ n : Nat, signed (unsign (sign ++ body)).1 n = factor * n := by
  cases hs with
  | plus | minus => exact ⟨rfl, fun n => by simp [unsign, signed]⟩
  | none =>
    have hplain : unsign body = (false, body) := by
      unfold unsign
      split
      · exact absurd (hb '-' (by simp)) (by simp [isDigit_sign])
      · exact absurd (hb '+' (by simp)) (by simp [isDigit_sign])
      · rfl
    rw [List.nil_append, hplain]
    exact ⟨rfl, fun n => by simp [signed]⟩

/-- A word is numeric if digits, and nothing else, are left when its sign is taken off. -/
theorem isNumeric_iff {word : List Char} :
    IsNumeric word ↔ (unsign word).2 ≠ [] ∧ ∀ c ∈ (unsign word).2, isDigit c = true := by
  constructor
  · rintro ⟨factor, sign, body, hs, hne, hb, rfl⟩
    rw [(unsign_append hs hb).1]
    exact ⟨hne, hb⟩
  · rintro ⟨hne, hb⟩
    obtain ⟨factor, sign, hs, hw, -⟩ := exists_sign word
    exact ⟨factor, sign, _, hs, hne, hb, hw⟩

instance (word : List Char) : Decidable (IsNumeric word) :=
  decidable_of_iff ((!(unsign word).2.isEmpty && (unsign word).2.all isDigit) = true) (by
    simp [isNumeric_iff])

end Text

/-! ## Words -/

/-- A run of one or more characters that are neither blank nor parentheses nor double quotes. -/
def Token.IsWord (word : List Char) : Prop :=
  word ≠ [] ∧ ∀ c ∈ word, Text.isBlank c = false ∧ c ≠ '(' ∧ c ≠ ')' ∧ c ≠ '"'

theorem Token.isDelimiter_eq_false_iff {c : Char} :
    Token.isDelimiter c = false ↔ Text.isBlank c = false ∧ c ≠ '(' ∧ c ≠ ')' ∧ c ≠ '"' := by
  simp only [Token.isDelimiter, Bool.or_eq_false_iff, decide_eq_false_iff_not]
  tauto

instance (word : List Char) : Decidable (Token.IsWord word) :=
  decidable_of_iff ((!word.isEmpty && word.all fun c => !Token.isDelimiter c) = true) (by
    simp [Token.IsWord, Token.isDelimiter_eq_false_iff])

/-- The meaning of words. -/
inductive Denotes : List Char → Value → Prop
  /-- Decimal digits after at most one sign denote an integer. -/
  | int {factor : Int} {sign digits : List Char} {ds : List Nat} (hs : Text.Sign factor sign)
      (hne : digits ≠ []) (hd : digits.map Text.decimal? = ds.map some) :
      Denotes (sign ++ digits) (.int (factor * (Nat.ofDigits 10 ds.reverse : Nat)))
  /-- A word that is not numeric denotes the symbol of that name. -/
  | sym {word : List Char} (h : ¬ Text.IsNumeric word) : Denotes word (.sym (String.ofList word))

theorem Text.isDigit_of_map_decimal? {digits : List Char} {ds : List Nat}
    (hd : digits.map decimal? = ds.map some) : ∀ c ∈ digits, isDigit c = true := by
  intro c hc
  have hmem : decimal? c ∈ ds.map some := hd ▸ List.mem_map_of_mem hc
  obtain ⟨d, -, h⟩ := List.mem_map.1 hmem
  exact isDigit_of_isDecimal (by rw [isDecimal, ← h]; rfl)

/-- `Value.ofAtom` by the class of the word. -/
theorem ofAtom_eq (word : List Char) :
    Value.ofAtom word =
      if Text.IsNumeric word then
        match Text.natural? (Text.unsign word).2 with
        | some n => .ok (.int (Text.signed (Text.unsign word).1 n))
        | none => .error (.notDecimal word)
      else .ok (.sym (String.ofList word)) := by
  have hcond : ((Text.unsign word).2.isEmpty || !(Text.unsign word).2.all Text.isDigit) = true ↔
      ¬ Text.IsNumeric word := by
    simp only [Text.isNumeric_iff, Bool.or_eq_true, List.isEmpty_iff, Bool.not_eq_true',
      List.all_eq_false]
    grind
  by_cases hn : Text.IsNumeric word
  · rw [if_pos hn]
    exact if_neg (mt hcond.1 (not_not_intro hn))
  · rw [if_neg hn]
    exact if_pos (hcond.2 hn)

/-- `Value.ofAtom` computes what a word denotes. -/
theorem ofAtom_eq_ok_iff {word : List Char} {v : Value} :
    Value.ofAtom word = .ok v ↔ Denotes word v := by
  rw [ofAtom_eq]
  constructor
  · intro h
    split at h
    · next hn =>
      split at h
      · next n hd =>
        obtain ⟨ds, hds, rfl⟩ := Text.natural?_eq_some_iff.1 hd
        obtain ⟨factor, sign, hs, hw, hsigned⟩ := Text.exists_sign word
        cases h
        rw [hsigned, hw]
        exact .int hs (Text.isNumeric_iff.1 hn).1 hds
      · cases h
    · next hn =>
      cases h
      exact .sym hn
  · intro h
    cases h with
    | sym hn => rw [if_neg hn]
    | @int factor sign digits ds hs hne hd =>
      have hdigits := Text.isDigit_of_map_decimal? hd
      obtain ⟨hbody, hsigned⟩ := Text.unsign_append hs hdigits
      rw [if_pos ⟨factor, sign, digits, hs, hne, hdigits, rfl⟩, hbody,
        Text.natural?_eq_some_iff.2 ⟨ds, hd, rfl⟩]
      simp only [hsigned]

/-- A word made of digits, not all of which are decimal, after at most one sign. -/
def IsMalformed (word : List Char) : Prop :=
  ∃ factor sign body, Text.Sign factor sign ∧ (∀ c ∈ body, Text.isDigit c = true) ∧
    (∃ c ∈ body, Text.isDecimal c = false) ∧ word = sign ++ body

/-- `Value.ofAtom` fails on malformed words only. -/
theorem ofAtom_eq_error_iff {word : List Char} {e : ReadError} :
    Value.ofAtom word = .error e ↔ e = .notDecimal word ∧ IsMalformed word := by
  rw [ofAtom_eq]
  constructor
  · intro h
    split at h
    · next hn =>
      split at h
      · cases h
      · next hd =>
        cases h
        obtain ⟨factor, sign, hs, hw, -⟩ := Text.exists_sign word
        exact ⟨rfl, factor, sign, _, hs, (Text.isNumeric_iff.1 hn).2,
          Text.natural?_eq_none_iff.1 hd, hw⟩
    · cases h
  · rintro ⟨rfl, factor, sign, body, hs, hb, hbare, rfl⟩
    have hne : body ≠ [] := by
      obtain ⟨c, hc, -⟩ := hbare
      exact List.ne_nil_of_mem hc
    have hn : Text.IsNumeric (sign ++ body) := ⟨factor, sign, body, hs, hne, hb, rfl⟩
    rw [if_pos hn, (Text.unsign_append hs hb).1, Text.natural?_eq_none_iff.2 hbare]

/-! ## Written words -/

/-- The numeral of an integer denotes it. -/
theorem denotes_numeral (n : Int) : Denotes (Text.numeral n) (.int n) := by
  cases n with
  | ofNat n =>
    obtain ⟨ds, hds, hn⟩ := Text.natural?_eq_some_iff.1 (Text.natural?_toDigits n)
    have h := Denotes.int .none Nat.toDigits_ne_nil hds
    rw [← hn] at h
    simpa [Text.numeral] using h
  | negSucc n =>
    obtain ⟨ds, hds, hn⟩ := Text.natural?_eq_some_iff.1 (Text.natural?_toDigits (n + 1))
    have h := Denotes.int .minus Nat.toDigits_ne_nil hds
    rw [← hn] at h
    simpa [Text.numeral, Int.negSucc_eq] using h

theorem Text.mem_numeral {n : Int} {c : Char} (hc : c ∈ numeral n) : c = '-' ∨ c.isDigit = true := by
  cases n with
  | ofNat n => exact .inr (Nat.isDigit_of_mem_toDigits (by decide) (by decide) hc)
  | negSucc n =>
    rcases List.mem_cons.1 hc with rfl | hc
    · exact .inl rfl
    · exact .inr (Nat.isDigit_of_mem_toDigits (by decide) (by decide) hc)

theorem isWord_numeral (n : Int) : Token.IsWord (Text.numeral n) := by
  refine ⟨?_, fun c hc => ?_⟩
  · cases n <;> simp [Text.numeral, Nat.toDigits_ne_nil]
  · rcases Text.mem_numeral hc with rfl | hd
    · decide
    · rw [Char.isDigit_iff_toNat] at hd
      have hlow : 48 ≤ c.toNat := hd.1
      have hhigh : c.toNat ≤ 57 := hd.2
      refine ⟨?_, ?_, ?_, ?_⟩
      · simp only [Text.isBlank, Text.blankRuns, List.any_eq_false, List.mem_cons]
        grind
      all_goals
        rintro rfl
        revert hlow
        decide

/-- A name by which a symbol can be written: a word that is not numeric. -/
def Readable (name : String) : Prop :=
  Token.IsWord name.toList ∧ ¬ Text.IsNumeric name.toList

instance (name : String) : Decidable (Readable name) := instDecidableAnd

end StackBreeder
