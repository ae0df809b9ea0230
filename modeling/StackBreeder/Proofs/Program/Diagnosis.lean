import Mathlib.Data.List.Infix
import StackBreeder.Proofs.Program.Grammar
import StackBreeder.Proofs.Program.Literal

/-!
# What is wrong with a text

`Verdict` says of every text what reading it comes to, by conditions on the text alone: a literal
without end is reported before anything else, then a missing opening parenthesis, then the first
malformed atom within the program, and only then tokens behind the program or a parenthesis that is
not closed. The program ends where, for the first time, as many parentheses have been closed as
opened (`Token.IsExtent`). The verdicts exclude each other and leave no text out, as they are those
of the reader (`read_verdict`).

A closing parenthesis or a value where no list is open would be a fault as well, but reading never
comes upon one: `Program.assemble`, which is prepared for them, keeps a list open until the program
is complete, and takes no token after that (`Program.assembleText_eq`).
-/

namespace StackBreeder

/-! ## The extent of a program -/

namespace Token

/-- There are as many closing parentheses as opening ones. -/
def IsBalanced (tokens : List Token) : Prop := tokens.count .closing = tokens.count .opening

/-- The shortest non-empty part in front of tokens that has as many closing parentheses as opening
ones. -/
structure IsExtent (tokens part : List Token) : Prop where
  isPrefix : part <+: tokens
  ne_nil : part ≠ []
  isBalanced : IsBalanced part
  length_le : ∀ front, front <+: tokens → front ≠ [] → IsBalanced front →
    part.length ≤ front.length

/-- The tokens that belong to a program: its extent, or all tokens if it has none. -/
def IsScope (tokens part : List Token) : Prop :=
  IsExtent tokens part ∨ part = tokens ∧ ∀ front, ¬ IsExtent tokens front

/-- Closing parentheses never make up for the opening ones and as many others. -/
def StaysOpen (depth : Nat) (part : List Token) : Prop :=
  ∀ front, front <+: part → front.count .closing ≠ depth + front.count .opening

variable {tokens part front : List Token} {token : Token} {depth : Nat}

theorem exists_isExtent (hfront : front <+: tokens) (hne : front ≠ []) (hb : IsBalanced front) :
    ∃ part, IsExtent tokens part := by
  obtain ⟨part, ⟨hpart, hne, hb⟩, hmin⟩ := (measure List.length).wf.has_min
    {front : List Token | front <+: tokens ∧ front ≠ [] ∧ IsBalanced front} ⟨front, hfront, hne, hb⟩
  exact ⟨part, hpart, hne, hb, fun front hfront hne hb =>
    Nat.le_of_not_lt (hmin front ⟨hfront, hne, hb⟩)⟩

theorem exists_isScope (tokens : List Token) : ∃ part, IsScope tokens part := by
  by_cases h : ∃ part, IsExtent tokens part
  · exact h.imp fun part => .inl
  · exact ⟨tokens, .inr ⟨rfl, not_exists.1 h⟩⟩

theorem IsScope.isPrefix (h : IsScope tokens part) : part <+: tokens := by
  rcases h with h | ⟨rfl, -⟩
  · exact h.isPrefix
  · exact List.prefix_rfl

/-- Before the end of a program there are other numbers of closing and of opening parentheses. -/
theorem IsScope.not_isBalanced (h : IsScope tokens part) (hfront : front <+: tokens)
    (hne : front ≠ []) (hlt : front.length < part.length) : ¬ IsBalanced front := by
  intro hb
  rcases h with h | ⟨rfl, h⟩
  · exact Nat.not_le_of_lt hlt (h.length_le front hfront hne hb)
  · obtain ⟨extent, hextent⟩ := exists_isExtent hfront hne hb
    exact h extent hextent

theorem staysOpen_of_not_isBalanced
    (h : ∀ inner, inner <+: front → ¬ IsBalanced (.opening :: inner)) : StaysOpen 1 front := by
  intro inner hinner heq
  refine h inner hinner ?_
  rw [IsBalanced, List.count_cons_of_ne (by decide), List.count_cons_self, heq, Nat.add_comm]

/-- Before the end of a program the tokens after its first parenthesis leave it open. -/
theorem IsScope.staysOpen (h : IsScope tokens part) (hfront : .opening :: front <+: tokens)
    (hlt : front.length + 1 < part.length) : StaysOpen 1 front := by
  refine staysOpen_of_not_isBalanced fun inner hinner => ?_
  have hlonger : .opening :: inner <+: .opening :: front := List.cons_prefix_cons.2 ⟨rfl, hinner⟩
  have hlength := hinner.length_le
  refine h.not_isBalanced (hlonger.trans hfront) (List.cons_ne_nil _ _) ?_
  rw [List.length_cons]
  omega

/-- What is behind the first token stays open as the first token leaves it. -/
theorem StaysOpen.tail {depth' : Nat} (h : StaysOpen depth (token :: part))
    (hdepth : depth + [token].count .opening = depth' + [token].count .closing) :
    StaysOpen depth' part := by
  intro front hfront heq
  have hcons (t : Token) : (token :: front).count t = [token].count t + front.count t := by
    rw [← List.singleton_append, List.count_append]
  refine h (token :: front) (List.cons_prefix_cons.2 ⟨rfl, hfront⟩) ?_
  rw [hcons, hcons]
  omega

end Token

section
variable {tokens part : List Token} {word src : List Char}

theorem exists_ofAtom_of_not_isMalformed (h : ¬ IsMalformed word) :
    ∃ v, Value.ofAtom word = .ok v := by
  cases hv : Value.ofAtom word with
  | ok v => exact ⟨v, rfl⟩
  | error e => exact absurd (ofAtom_eq_error_iff.1 hv).2 h

/-- The builder takes tokens that stay open and have no malformed atoms, and has as many more open
lists than before as there are more opening than closing parentheses. -/
theorem build_of_staysOpen (outer : List (List Value)) (items : List Value) (position : Nat)
    (hopen : Token.StaysOpen (outer.length + 1) part)
    (hwords : ∀ word, .atom word ∈ part → ¬ IsMalformed word) (rest : List Token) :
    ∃ outer' items', outer'.length + part.count .closing = outer.length + part.count .opening ∧
      Program.build outer items position (part ++ rest) =
        Program.build outer' items' (position + part.length) rest := by
  induction part generalizing outer items position with
  | nil => exact ⟨outer, items, rfl, rfl⟩
  | cons token part ih =>
    have hwords' (word : List Char) (hmem : .atom word ∈ part) : ¬ IsMalformed word :=
      hwords word (.tail _ hmem)
    have hposition : position + (token :: part).length = position + 1 + part.length := by
      rw [List.length_cons]
      omega
    rw [hposition, List.cons_append]
    cases token with
    | opening =>
      have hrest : Token.StaysOpen ((items :: outer).length + 1) part := hopen.tail (by simp)
      obtain ⟨outer', items', hcount, hbuild⟩ := ih _ _ _ hrest hwords'
      refine ⟨outer', items', ?_, by rw [Program.build, hbuild]⟩
      rw [List.count_cons_of_ne (by simp), List.count_cons_self, hcount, List.length_cons]
      omega
    | closing =>
      cases outer with
      | nil => exact absurd rfl (hopen [.closing] (by simp))
      | cons enclosing outer =>
        have hrest : Token.StaysOpen (outer.length + 1) part := hopen.tail (by simp)
        obtain ⟨outer', items', hcount, hbuild⟩ := ih _ _ _ hrest hwords'
        refine ⟨outer', items', ?_, by rw [Program.build, hbuild]⟩
        rw [List.count_cons_self, List.count_cons_of_ne (by simp), List.length_cons]
        omega
    | literal content =>
      have hrest : Token.StaysOpen (outer.length + 1) part := hopen.tail (by simp)
      obtain ⟨outer', items', hcount, hbuild⟩ := ih _ _ _ hrest hwords'
      refine ⟨outer', items', ?_, by rw [Program.build, hbuild]⟩
      rw [List.count_cons_of_ne (by simp), List.count_cons_of_ne (by simp), hcount]
    | atom word =>
      obtain ⟨v, hv⟩ := exists_ofAtom_of_not_isMalformed (hwords word (.head _))
      have hrest : Token.StaysOpen (outer.length + 1) part := hopen.tail (by simp)
      obtain ⟨outer', items', hcount, hbuild⟩ := ih _ _ _ hrest hwords'
      refine ⟨outer', items', ?_, by rw [Program.build, hv]; exact hbuild⟩
      rw [List.count_cons_of_ne (by simp), List.count_cons_of_ne (by simp), hcount]

/-- The first malformed atom among tokens. -/
def IsFirstMalformed (tokens : List Token) (word : List Char) : Prop :=
  ∃ front back, tokens = front ++ .atom word :: back ∧ IsMalformed word ∧
    ∀ word', .atom word' ∈ front → ¬ IsMalformed word'

theorem exists_isFirstMalformed (tokens : List Token) :
    (∃ word, IsFirstMalformed tokens word) ∨
      ∀ word, .atom word ∈ tokens → ¬ IsMalformed word := by
  induction tokens with
  | nil => exact .inr nofun
  | cons token tokens ih =>
    by_cases htoken : ∃ word, token = .atom word ∧ IsMalformed word
    · obtain ⟨word, rfl, hword⟩ := htoken
      exact .inl ⟨word, [], tokens, rfl, hword, nofun⟩
    · have hhead (word : List Char) (heq : .atom word = token) : ¬ IsMalformed word :=
        fun hword => htoken ⟨word, heq.symm, hword⟩
      rcases ih with ⟨word, front, back, rfl, hword, hwords⟩ | hwords
      · refine .inl ⟨word, token :: front, back, rfl, hword, fun word' hmem => ?_⟩
        exact (List.mem_cons.1 hmem).elim (hhead word') (hwords word')
      · exact .inr fun word hmem => (List.mem_cons.1 hmem).elim (hhead word) (hwords word)

/-- The first malformed atom of a program is reported, whatever is wrong behind it. -/
theorem ofTokens_of_isFirstMalformed (hscope : Token.IsScope (.opening :: tokens) part)
    (hfirst : IsFirstMalformed part word) :
    Program.ofTokens (.opening :: tokens) = .error (.notDecimal word) := by
  obtain ⟨front, back, rfl, hword, hwords⟩ := hfirst
  obtain ⟨rest, hrest⟩ := hscope.isPrefix
  cases front with
  | nil => cases hrest
  | cons token front =>
    rw [List.cons_append, List.cons_append, List.append_assoc, List.cons_append] at hrest
    obtain ⟨rfl, rfl⟩ := List.cons.inj hrest
    have hopen : Token.StaysOpen 1 front := hscope.staysOpen ⟨_, List.cons_append⟩ (by simp)
    obtain ⟨outer, items, -, hbuild⟩ := build_of_staysOpen [] [] 1 hopen
      (fun word hmem => hwords word (.tail _ hmem)) (.atom word :: (back ++ rest))
    rw [Program.ofTokens, hbuild, Program.build, ofAtom_eq_error_iff.2 ⟨rfl, hword⟩]

/-- Without malformed atoms a program ends where as many parentheses have been closed as opened, and
nothing may stand behind that. -/
theorem ofTokens_of_isExtent (h : Token.IsExtent (.opening :: tokens) part)
    (hwords : ∀ word, .atom word ∈ part → ¬ IsMalformed word) :
    (part = .opening :: tokens → ∃ p, Program.ofTokens (.opening :: tokens) = .ok p) ∧
      (part ≠ .opening :: tokens →
        Program.ofTokens (.opening :: tokens) = .error (.trailing part.length)) := by
  have hscope : Token.IsScope (.opening :: tokens) part := .inl h
  have hbalanced := h.isBalanced
  obtain ⟨rest, hrest⟩ := h.isPrefix
  cases part with
  | nil => exact absurd rfl h.ne_nil
  | cons token part =>
    rw [List.cons_append] at hrest
    obtain ⟨rfl, rfl⟩ := List.cons.inj hrest
    rcases List.eq_nil_or_concat' part with rfl | ⟨inner, last, rfl⟩
    · cases hbalanced
    have hopen : Token.StaysOpen 1 inner := hscope.staysOpen ⟨last :: rest, by simp⟩ (by simp)
    obtain ⟨outer, items, hcount, hbuild⟩ := build_of_staysOpen [] [] 1 hopen
      (fun word hmem => hwords word (.tail _ (List.mem_append_left _ hmem))) (last :: rest)
    rw [List.length_nil, Nat.zero_add] at hcount
    have hcounts : inner.count .closing + [last].count .closing =
        inner.count .opening + [last].count .opening + 1 := by
      rwa [Token.IsBalanced, List.count_cons_of_ne (by decide), List.count_cons_self,
        List.count_append, List.count_append] at hbalanced
    -- only a closing parenthesis makes up for the first opening one
    obtain rfl : last = .closing := by
      by_contra hne
      have hnone : [last].count .closing = 0 := List.count_eq_zero.2 (by simpa using Ne.symm hne)
      omega
    have hclosing : [Token.closing].count .closing = 1 := rfl
    have hopening : [Token.closing].count .opening = 0 := rfl
    obtain rfl : outer = [] := List.length_eq_zero_iff.1 (by omega)
    rw [Program.ofTokens, List.append_assoc, List.singleton_append, hbuild, Program.build]
    cases rest with
    | nil => exact ⟨fun _ => ⟨items.reverse, rfl⟩, fun hne => absurd rfl hne⟩
    | cons token rest =>
      refine ⟨fun heq => absurd (congrArg List.length heq) (by simp), fun _ => ?_⟩
      rw [List.length_cons, List.length_append, List.length_singleton, Nat.add_comm 1]
      rfl

/-- Without malformed atoms and without an end a program is not closed. -/
theorem ofTokens_of_forall_not_isExtent (h : ∀ part, ¬ Token.IsExtent (.opening :: tokens) part)
    (hwords : ∀ word, .atom word ∈ tokens → ¬ IsMalformed word) :
    Program.ofTokens (.opening :: tokens) = .error .unclosed := by
  have hopen : Token.StaysOpen 1 tokens :=
    Token.staysOpen_of_not_isBalanced fun front hfront hbalanced => by
      obtain ⟨part, hpart⟩ := Token.exists_isExtent (List.cons_prefix_cons.2 ⟨rfl, hfront⟩)
        (List.cons_ne_nil _ _) hbalanced
      exact h part hpart
  obtain ⟨outer, items, -, hbuild⟩ := build_of_staysOpen [] [] 1 hopen hwords []
  rw [List.append_nil] at hbuild
  rw [Program.ofTokens, hbuild, Program.build]

theorem ofTokens_of_head?_ne (h : tokens.head? ≠ some .opening) :
    Program.ofTokens tokens = .error .noOpening := by
  unfold Program.ofTokens
  split
  · exact absurd rfl h
  · rfl

/-! ## Verdicts -/

/-- What reading a text comes to: the text of an error, or nothing if it is a program. -/
inductive Verdict (src : List Char) : Option String → Prop
  /-- Nothing closes a string literal. -/
  | unterminated {offset : Nat} (h : UnclosedAt src offset) :
      Verdict src (some ("unterminated string literal at offset " ++ toString offset))
  /-- The first token is no opening parenthesis, or there is none. -/
  | noOpening {tokens : List Token} (hl : Lexes false src tokens)
      (hopen : tokens.head? ≠ some .opening) : Verdict src (some "program must start with '('")
  /-- An atom of the program is malformed, and none before it is. -/
  | notDecimal {tokens part : List Token} {word : List Char} (hl : Lexes false src tokens)
      (hopen : tokens.head? = some .opening) (hpart : Token.IsScope tokens part)
      (hword : IsFirstMalformed part word) :
      Verdict src (some ("invalid literal for int() with base 10: " ++ quoteAtom word))
  /-- There are tokens behind the program. -/
  | trailing {tokens part : List Token} (hl : Lexes false src tokens)
      (hopen : tokens.head? = some .opening) (hpart : Token.IsExtent tokens part)
      (hwords : ∀ word, .atom word ∈ part → ¬ IsMalformed word)
      (hlt : part.length < tokens.length) :
      Verdict src (some ("trailing tokens after program at token " ++ toString part.length))
  /-- There are never as many closing parentheses as opening ones. -/
  | unclosed {tokens : List Token} (hl : Lexes false src tokens)
      (hopen : tokens.head? = some .opening) (hpart : ∀ part, ¬ Token.IsExtent tokens part)
      (hwords : ∀ word, .atom word ∈ tokens → ¬ IsMalformed word) :
      Verdict src (some "unbalanced '(' in program")
  /-- The program ends with the last token. -/
  | program {tokens : List Token} (hl : Lexes false src tokens)
      (hopen : tokens.head? = some .opening) (hpart : Token.IsExtent tokens tokens)
      (hwords : ∀ word, .atom word ∈ tokens → ¬ IsMalformed word) : Verdict src none

/-- There is a verdict on every text. -/
theorem exists_verdict (src : List Char) : ∃ verdict, Verdict src verdict := by
  cases hscan : Token.scan src with
  | error offset => exact ⟨_, .unterminated (scan_eq_error_iff.1 hscan)⟩
  | ok tokens =>
    have hl := scan_eq_ok_iff.1 hscan
    by_cases hopen : tokens.head? = some .opening
    · obtain ⟨part, hpart⟩ := Token.exists_isScope tokens
      rcases exists_isFirstMalformed part with ⟨word, hword⟩ | hwords
      · exact ⟨_, .notDecimal hl hopen hpart hword⟩
      · rcases hpart with hpart | ⟨rfl, hpart⟩
        · rcases Nat.lt_or_eq_of_le hpart.isPrefix.length_le with hlt | heq
          · exact ⟨_, .trailing hl hopen hpart hwords hlt⟩
          · obtain rfl := hpart.isPrefix.eq_of_length heq
            exact ⟨_, .program hl hopen hpart hwords⟩
        · exact ⟨_, .unclosed hl hopen hpart hwords⟩
    · exact ⟨_, .noOpening hl hopen⟩

/-- The reader comes to the verdict. -/
theorem Verdict.ofChars {verdict : Option String} (h : Verdict src verdict) :
    match verdict with
    | some text => ∃ e, Program.ofChars src = .error e ∧ e.message = text
    | none => ∃ p, Program.ofChars src = .ok p := by
  have hchars {tokens : List Token} (hl : Lexes false src tokens) :
      Program.ofChars src = Program.ofTokens tokens := by
    rw [Program.ofChars, scan_eq_ok_iff.2 hl]
  cases h with
  | @unterminated offset h =>
    refine ⟨.unterminated offset, ?_, rfl⟩
    simp only [Program.ofChars, h.scan]
  | noOpening hl hopen => exact ⟨.noOpening, (hchars hl).trans (ofTokens_of_head?_ne hopen), rfl⟩
  | @notDecimal _ _ word hl hopen hpart hword =>
    obtain ⟨tokens, rfl⟩ := List.head?_eq_some_iff.1 hopen
    exact ⟨.notDecimal word, (hchars hl).trans (ofTokens_of_isFirstMalformed hpart hword), rfl⟩
  | @trailing _ part hl hopen hpart hwords hlt =>
    obtain ⟨tokens, rfl⟩ := List.head?_eq_some_iff.1 hopen
    refine ⟨.trailing part.length, ?_, rfl⟩
    refine (hchars hl).trans ((ofTokens_of_isExtent hpart hwords).2 ?_)
    rintro rfl
    exact Nat.lt_irrefl _ hlt
  | unclosed hl hopen hpart hwords =>
    obtain ⟨tokens, rfl⟩ := List.head?_eq_some_iff.1 hopen
    refine ⟨.unclosed, (hchars hl).trans ?_, rfl⟩
    exact ofTokens_of_forall_not_isExtent hpart fun word hmem => hwords word (.tail _ hmem)
  | program hl hopen hpart hwords =>
    obtain ⟨tokens, rfl⟩ := List.head?_eq_some_iff.1 hopen
    rw [hchars hl]
    exact (ofTokens_of_isExtent hpart hwords).1 rfl

theorem exists_ofChars_eq_error_iff {text : String} :
    (∃ e, Program.ofChars src = .error e ∧ e.message = text) ↔ Verdict src (some text) := by
  refine ⟨?_, Verdict.ofChars⟩
  rintro ⟨e, he, rfl⟩
  obtain ⟨verdict, hverdict⟩ := exists_verdict src
  cases verdict with
  | none =>
    obtain ⟨p, hp⟩ := hverdict.ofChars
    rw [hp] at he
    cases he
  | some text =>
    obtain ⟨e', he', rfl⟩ := hverdict.ofChars
    rw [he'] at he
    cases he
    exact hverdict

theorem exists_ofChars_eq_ok_iff : (∃ p, Program.ofChars src = .ok p) ↔ Verdict src none := by
  refine ⟨?_, Verdict.ofChars⟩
  rintro ⟨p, hp⟩
  obtain ⟨verdict, hverdict⟩ := exists_verdict src
  cases verdict with
  | none => exact hverdict
  | some text =>
    obtain ⟨e, he, -⟩ := hverdict.ofChars
    rw [he] at hp
    cases hp

end

/-! ## Tokens for which there is no list -/

/-- Why an assembly of tokens stops: for a fault of the text, or at a token for which there is no
open list. -/
inductive AssemblyError where
  | fault (e : ReadError)
  /-- The token at this position closes a list, and none is open. -/
  | strayClosing (position : Nat)
  /-- The token at this position is a value, and no list is open. -/
  | strayValue (position : Nat)
  deriving DecidableEq, Repr

namespace Program

/-- Assembles a program from tokens, whichever they are. The lists that are open are kept innermost
first, with their latest items first, and the program is kept when it is complete. -/
def assemble (lists : List (List Value)) (program : Option Program) (position : Nat) :
    List Token → Except AssemblyError Program
  | [] =>
    match program with
    | some p => .ok p
    | none => .error (.fault .unclosed)
  | token :: rest =>
    match program, token, lists with
    | some _, _, _ => .error (.fault (.trailing position))
    | none, .opening, lists => assemble ([] :: lists) none (position + 1) rest
    | none, .closing, [] => .error (.strayClosing position)
    | none, .closing, [items] => assemble [] (some items.reverse) (position + 1) rest
    | none, .closing, items :: enclosing :: outer =>
      assemble ((.block items.reverse :: enclosing) :: outer) none (position + 1) rest
    | none, _, [] => .error (.strayValue position)
    | none, .literal content, items :: outer =>
      assemble ((.text (String.ofList content) :: items) :: outer) none (position + 1) rest
    | none, .atom chars, items :: outer =>
      match Value.ofAtom chars with
      | .ok value => assemble ((value :: items) :: outer) none (position + 1) rest
      | .error e => .error (.fault e)

/-- Reads a text by assembling all of its tokens, if the first one is an opening parenthesis. -/
def assembleText (src : String) : Except AssemblyError Program :=
  match Token.scan src.toList with
  | .ok tokens =>
    if tokens.head? = some .opening then assemble [] none 0 tokens else .error (.fault .noOpening)
  | .error offset => .error (.fault (.unterminated offset))

/-- Until the program is complete there is an open list, and the assembly is that of the reader. -/
theorem assemble_cons (outer : List (List Value)) (items : List Value) (position : Nat)
    (tokens : List Token) :
    assemble (items :: outer) none position tokens =
      (build outer items position tokens).mapError .fault := by
  induction tokens generalizing outer items position with
  | nil => rfl
  | cons token tokens ih =>
    cases token with
    | opening => exact ih (items :: outer) [] (position + 1)
    | closing =>
      cases outer with
      | nil => cases tokens <;> rfl
      | cons enclosing outer => exact ih outer (.block items.reverse :: enclosing) (position + 1)
    | literal content => exact ih outer (.text (String.ofList content) :: items) (position + 1)
    | atom word =>
      rw [assemble, build]
      cases Value.ofAtom word with
      | ok v => exact ih outer (v :: items) (position + 1)
      | error e => rfl

/-- An assembly stops for no other reasons than the reader. -/
theorem assembleText_eq (src : String) : assembleText src = (read src).mapError .fault := by
  rw [assembleText, read, ofChars]
  cases Token.scan src.toList with
  | error offset => rfl
  | ok tokens =>
    dsimp only
    split
    · next hopen =>
      obtain ⟨tokens, rfl⟩ := List.head?_eq_some_iff.1 hopen
      exact assemble_cons [] [] 1 tokens
    · next hopen =>
      rw [ofTokens_of_head?_ne hopen]
      rfl

end Program

/-- Reading a text fails, and with which text of an error, exactly as the verdict says, and succeeds
exactly if the verdict is that it is a program. An assembly of the tokens that is prepared for
tokens without an open list comes to the same program or the same error, and so never meets such a
token. -/
theorem read_verdict (src : String) :
    (∀ text, (∃ e, Program.read src = .error e ∧ e.message = text) ↔
      Verdict src.toList (some text)) ∧
    ((∃ p, Program.read src = .ok p) ↔ Verdict src.toList none) ∧
    Program.assembleText src = (Program.read src).mapError .fault ∧
    ∀ position, Program.assembleText src ≠ .error (.strayClosing position) ∧
      Program.assembleText src ≠ .error (.strayValue position) := by
  refine ⟨fun text => exists_ofChars_eq_error_iff, exists_ofChars_eq_ok_iff,
    Program.assembleText_eq src, fun position => ?_⟩
  rw [Program.assembleText_eq]
  cases Program.read src with
  | ok p => exact ⟨nofun, nofun⟩
  | error e => exact ⟨nofun, nofun⟩

/-- A malformed atom in the program goes before the tokens behind it, and these go before a
malformed atom among them. -/
example : Program.read "(a ²) b" = .error (.notDecimal ['²']) ∧
    Program.read "(a) ²" = .error (.trailing 3) := by
  decide

end StackBreeder
