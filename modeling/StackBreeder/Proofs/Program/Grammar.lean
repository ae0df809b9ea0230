import StackBreeder.Proofs.Program.Lexing

/-!
# The grammar of programs

`Writes` is the grammar of program text: a list of items in parentheses, with blanks around it. An
item is again such a list, a string literal or a word. Blanks may stand anywhere between items and
must stand between two words (`Items`). Reading a text yields exactly the program that the grammar
assigns to it, and fails on every text to which it assigns none (`read_eq_ok_iff`).

In between stands the same grammar over tokens (`Spells`). The builder keeps a stack of open lists;
`Closes` says what the tokens after a point must be for all of them to be closed, which turns the
stack into a nesting of derivations.
-/

namespace StackBreeder

/-! ## The grammar over tokens -/

/-- The values that a list of tokens spells. -/
inductive Spells : List Token → List Value → Prop
  | nil : Spells [] []
  | atom {word : List Char} {v : Value} {tokens : List Token} {vs : List Value}
      (hv : Denotes word v) (h : Spells tokens vs) : Spells (.atom word :: tokens) (v :: vs)
  | literal {content : List Char} {tokens : List Token} {vs : List Value} (h : Spells tokens vs) :
      Spells (.literal content :: tokens) (.text (String.ofList content) :: vs)
  | block {inner tokens : List Token} {items vs : List Value} (hi : Spells inner items)
      (h : Spells tokens vs) :
      Spells (.opening :: (inner ++ .closing :: tokens)) (.block items :: vs)

section
variable {outer : List (List Value)} {items vs : List Value} {v : Value} {p : Program}
  {tokens rest : List Token} {position : Nat}

/-- The builder takes the values that tokens spell into the innermost list. -/
theorem Spells.build (h : Spells tokens vs) (outer : List (List Value)) (items : List Value)
    (position : Nat) (rest : List Token) :
    Program.build outer items position (tokens ++ rest) =
      Program.build outer (vs.reverse ++ items) (position + tokens.length) rest := by
  induction h generalizing outer items position rest with
  | nil => rfl
  | atom hv _ ih =>
    rw [List.cons_append, Program.build, ofAtom_eq_ok_iff.2 hv]
    simp only [ih]
    simp [Nat.add_comm, Nat.add_left_comm]
  | literal _ ih =>
    rw [List.cons_append, Program.build, ih]
    simp [Nat.add_comm, Nat.add_left_comm]
  | @block inner tokens items' vs _ _ ihi ih =>
    rw [List.cons_append, Program.build, List.append_assoc, ihi, List.cons_append, Program.build, ih]
    simp [Nat.add_comm, Nat.add_left_comm]

/-- The tokens that close all lists of the builder: each list is continued by values and a closing
parenthesis, and becomes an item of the one around it; the outermost one is the program. -/
def Closes : List (List Value) → List Value → List Token → Program → Prop
  | [], items, tokens, p =>
    ∃ inner vs, tokens = inner ++ [.closing] ∧ Spells inner vs ∧ p = items.reverse ++ vs
  | enclosing :: outer, items, tokens, p =>
    ∃ inner vs rest, tokens = inner ++ .closing :: rest ∧ Spells inner vs ∧
      Closes outer (.block (items.reverse ++ vs) :: enclosing) rest p

/-- Tokens that spell one more value may come before those that close the lists with it. -/
theorem Closes.cons (front : List Token)
    (hfront : ∀ {tokens vs}, Spells tokens vs → Spells (front ++ tokens) (v :: vs))
    (h : Closes outer (v :: items) rest p) : Closes outer items (front ++ rest) p := by
  cases outer with
  | nil =>
    obtain ⟨inner, vs, rfl, hs, rfl⟩ := h
    exact ⟨front ++ inner, v :: vs, by simp, hfront hs, by simp⟩
  | cons enclosing outer =>
    obtain ⟨inner, vs, rest, rfl, hs, h⟩ := h
    exact ⟨front ++ inner, v :: vs, rest, by simp, hfront hs, by simpa using h⟩

/-- The builder succeeds on no other tokens than those that close its lists. -/
theorem closes_of_build (h : Program.build outer items position tokens = .ok p) :
    Closes outer items tokens p := by
  induction tokens generalizing outer items position with
  | nil => cases h
  | cons token tokens ih =>
    cases token with
    | opening =>
      obtain ⟨inner, vs, rest, rfl, hs, h⟩ := ih h
      have hfront {tokens vs'} (ht : Spells tokens vs') :
          Spells ((.opening :: inner ++ [.closing]) ++ tokens) (.block vs :: vs') := by
        simpa using Spells.block hs ht
      simpa using h.cons _ hfront
    | closing =>
      cases outer with
      | nil =>
        simp only [Program.build] at h
        split at h
        · next hempty =>
          cases h
          obtain rfl := List.isEmpty_iff.1 hempty
          exact ⟨[], [], rfl, .nil, by simp⟩
        · cases h
      | cons enclosing outer => exact ⟨[], [], tokens, rfl, .nil, by simpa using ih h⟩
    | literal content => exact (ih h).cons [.literal content] .literal
    | atom word =>
      simp only [Program.build] at h
      split at h
      · next v hv =>
        exact (ih h).cons [.atom word] (.atom (ofAtom_eq_ok_iff.1 hv))
      · cases h

/-- Tokens give a program if they are an opening parenthesis, tokens that spell its items, and the
closing one. -/
theorem ofTokens_eq_ok_iff :
    Program.ofTokens tokens = .ok p ↔
      ∃ inner, tokens = .opening :: (inner ++ [.closing]) ∧ Spells inner p := by
  constructor
  · intro h
    unfold Program.ofTokens at h
    split at h
    · obtain ⟨inner, vs, rfl, hs, rfl⟩ := closes_of_build h
      exact ⟨inner, rfl, hs⟩
    · cases h
  · rintro ⟨inner, rfl, hs⟩
    rw [Program.ofTokens, hs.build, Program.build]
    simp

end

/-! ## The grammar over characters -/

/-- The items that a text writes. `afterAtom` says whether a word stands right before the text,
which then must not start with another one. -/
inductive Items : (afterAtom : Bool) → List Char → List Value → Prop
  | done {afterAtom : Bool} {ws : List Char} (hws : Text.Blanks ws) : Items afterAtom ws []
  | block {afterAtom : Bool} {ws inner src : List Char} {items vs : List Value}
      (hws : Text.Blanks ws) (hi : Items false inner items) (h : Items false src vs) :
      Items afterAtom (ws ++ '(' :: (inner ++ ')' :: src)) (.block items :: vs)
  | literal {afterAtom : Bool} {ws body content src : List Char} {vs : List Value}
      (hws : Text.Blanks ws) (hb : Escapes body content) (h : Items false src vs) :
      Items afterAtom (ws ++ '"' :: (body ++ '"' :: src)) (.text (String.ofList content) :: vs)
  | atom {afterAtom : Bool} {ws word src : List Char} {v : Value} {vs : List Value}
      (hws : Text.Blanks ws) (hsep : afterAtom = true → ws ≠ []) (hw : Token.IsWord word)
      (hv : Denotes word v) (h : Items true src vs) : Items afterAtom (ws ++ (word ++ src)) (v :: vs)

/-- The program that a text writes. -/
inductive Writes : List Char → Program → Prop
  | intro {before inner after : List Char} {p : Program} (hb : Text.Blanks before)
      (h : Items false inner p) (ha : Text.Blanks after) :
      Writes (before ++ '(' :: (inner ++ ')' :: after)) p

section
variable {afterAtom : Bool} {src src' : List Char} {tokens tokens' : List Token}
  {vs : List Value} {p : Program}

/-- Two texts with a closing parenthesis between them consist of their tokens and that
parenthesis. -/
theorem Lexes.append_closing (h : Lexes afterAtom src tokens) (h' : Lexes false src' tokens') :
    Lexes afterAtom (src ++ ')' :: src') (tokens ++ .closing :: tokens') := by
  induction h with
  | done hws => exact .closing hws h'
  | opening hws _ ih => simpa using Lexes.opening hws ih
  | closing hws _ ih => simpa using Lexes.closing hws ih
  | literal hws hb _ ih => simpa using Lexes.literal hws hb ih
  | atom hws hsep hw _ ih => simpa using Lexes.atom hws hsep hw ih

/-- A text is divided where its tokens have a closing parenthesis. -/
theorem Lexes.split_closing (h : Lexes afterAtom src (tokens ++ .closing :: tokens')) :
    ∃ front back, src = front ++ ')' :: back ∧ Lexes afterAtom front tokens ∧
      Lexes false back tokens' := by
  induction tokens generalizing afterAtom src with
  | nil =>
    cases h with
    | closing hws h => exact ⟨_, _, rfl, .done hws, h⟩
  | cons token tokens ih =>
    cases h with
    | opening hws h =>
      obtain ⟨front, back, rfl, h, h'⟩ := ih h
      exact ⟨_, back, by simp, .opening hws h, h'⟩
    | closing hws h =>
      obtain ⟨front, back, rfl, h, h'⟩ := ih h
      exact ⟨_, back, by simp, .closing hws h, h'⟩
    | literal hws hb h =>
      obtain ⟨front, back, rfl, h, h'⟩ := ih h
      exact ⟨_, back, by simp, .literal hws hb h, h'⟩
    | atom hws hsep hw h =>
      obtain ⟨front, back, rfl, h, h'⟩ := ih h
      exact ⟨_, back, by simp, .atom hws hsep hw h, h'⟩

/-- The tokens of a text that writes items spell these. -/
theorem Items.exists_lexes (h : Items afterAtom src vs) :
    ∃ tokens, Lexes afterAtom src tokens ∧ Spells tokens vs := by
  induction h with
  | done hws => exact ⟨[], .done hws, .nil⟩
  | block hws _ _ ihi ih =>
    obtain ⟨inner, hl, hs⟩ := ihi
    obtain ⟨tokens, hl', hs'⟩ := ih
    exact ⟨_, .opening hws (hl.append_closing hl'), .block hs hs'⟩
  | literal hws hb _ ih =>
    obtain ⟨tokens, hl, hs⟩ := ih
    exact ⟨_, .literal hws hb hl, .literal hs⟩
  | atom hws hsep hw hv _ ih =>
    obtain ⟨tokens, hl, hs⟩ := ih
    exact ⟨_, .atom hws hsep hw hl, .atom hv hs⟩

/-- A text whose tokens spell items writes these. -/
theorem Spells.items (hs : Spells tokens vs) (hl : Lexes afterAtom src tokens) :
    Items afterAtom src vs := by
  induction hs generalizing afterAtom src with
  | nil =>
    cases hl with
    | done hws => exact .done hws
  | atom hv _ ih =>
    cases hl with
    | atom hws hsep hw hl => exact .atom hws hsep hw hv (ih hl)
  | literal _ ih =>
    cases hl with
    | literal hws hb hl => exact .literal hws hb (ih hl)
  | block _ _ ihi ih =>
    cases hl with
    | opening hws hl =>
      obtain ⟨front, back, rfl, hl, hl'⟩ := hl.split_closing
      exact .block hws (ihi hl) (ih hl')

/-- What the reader accepts is written in the grammar. -/
theorem writes_of_ofChars (h : Program.ofChars src = .ok p) : Writes src p := by
  unfold Program.ofChars at h
  split at h
  · next tokens hscan =>
    obtain ⟨inner, rfl, hs⟩ := ofTokens_eq_ok_iff.1 h
    cases scan_eq_ok_iff.1 hscan with
    | opening hb hl =>
      obtain ⟨front, back, rfl, hl, hend⟩ := hl.split_closing
      cases hend with
      | done ha => exact .intro hb (hs.items hl) ha
  · cases h

/-- What is written in the grammar is read. -/
theorem Writes.ofChars (h : Writes src p) : Program.ofChars src = .ok p := by
  obtain ⟨hb, hi, ha⟩ := h
  obtain ⟨inner, hl, hs⟩ := hi.exists_lexes
  have hscan := scan_eq_ok_iff.2 (.opening hb (hl.append_closing (.done ha)))
  rw [Program.ofChars, hscan]
  exact ofTokens_eq_ok_iff.2 ⟨inner, rfl, hs⟩

end

/-- Reading a text yields a program if and only if the grammar derives the text as that program. -/
theorem read_eq_ok_iff (src : String) (p : Program) :
    Program.read src = .ok p ↔ Writes src.toList p := by
  constructor
  · intro h
    exact writes_of_ofChars h
  · intro h
    exact h.ofChars

end StackBreeder
