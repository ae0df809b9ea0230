import Mathlib.Tactic.Tauto
import StackBreeder.Proofs.Program.Word

/-!
# Lexical grammar

`Lexes` says of a text which tokens it consists of, without reference to the lexer: blanks may stand
between any two tokens, and must stand between two atoms. The lexer accepts exactly the texts of
this grammar and yields their tokens (`scan_eq_ok_iff`).

For completeness the lexer is fed one token at a time (`Lexes.finish_foldl`). For soundness,
`Lexer.Reads` says what a text still adds to a lexer in any of its modes, the ones inside a token
included; a step of the lexer takes one character off the text that is to be read
(`Lexer.Reads.of_feed`).
-/

namespace StackBreeder

/-! ## The grammar -/

/-- Characters that are all blank. -/
def Text.Blanks (ws : List Char) : Prop := ∀ c ∈ ws, Text.isBlank c = true

theorem Text.blanks_nil : Text.Blanks [] := by simp [Text.Blanks]

/-- The characters between the quotes of a string literal and the content that they write: a
backslash gives the character after it, and any other character but a quote gives itself. -/
inductive Escapes : List Char → List Char → Prop
  | nil : Escapes [] []
  | plain {c : Char} {body content : List Char} (hq : c ≠ '"') (hb : c ≠ '\\')
      (h : Escapes body content) : Escapes (c :: body) (c :: content)
  | escaped {c : Char} {body content : List Char} (h : Escapes body content) :
      Escapes ('\\' :: c :: body) (c :: content)

/-- The tokens that a text consists of. `afterAtom` says whether an atom stands right before the
text, which then must not start with another one. -/
inductive Lexes : (afterAtom : Bool) → List Char → List Token → Prop
  | done {afterAtom : Bool} {ws : List Char} (hws : Text.Blanks ws) : Lexes afterAtom ws []
  | opening {afterAtom : Bool} {ws src : List Char} {tokens : List Token} (hws : Text.Blanks ws)
      (h : Lexes false src tokens) : Lexes afterAtom (ws ++ '(' :: src) (.opening :: tokens)
  | closing {afterAtom : Bool} {ws src : List Char} {tokens : List Token} (hws : Text.Blanks ws)
      (h : Lexes false src tokens) : Lexes afterAtom (ws ++ ')' :: src) (.closing :: tokens)
  | literal {afterAtom : Bool} {ws body content src : List Char} {tokens : List Token}
      (hws : Text.Blanks ws) (hb : Escapes body content) (h : Lexes false src tokens) :
      Lexes afterAtom (ws ++ '"' :: (body ++ '"' :: src)) (.literal content :: tokens)
  | atom {afterAtom : Bool} {ws word src : List Char} {tokens : List Token}
      (hws : Text.Blanks ws) (hsep : afterAtom = true → ws ≠ []) (hw : Token.IsWord word)
      (h : Lexes true src tokens) : Lexes afterAtom (ws ++ (word ++ src)) (.atom word :: tokens)

section
variable {afterAtom : Bool} {c : Char} {ws src word body content : List Char}
  {ts tokens : List Token} {offset start : Nat} {read : List Char}

/-- Blanks may be put before a text, and separate it from an atom. -/
theorem Lexes.blank_cons (hc : Text.isBlank c = true) (h : Lexes afterAtom src tokens)
    (before : Bool) : Lexes before (c :: src) tokens := by
  have hcons {ws : List Char} (hws : Text.Blanks ws) : Text.Blanks (c :: ws) :=
    List.forall_mem_cons.2 ⟨hc, hws⟩
  cases h with
  | done hws => exact .done (hcons hws)
  | opening hws h => exact .opening (hcons hws) h
  | closing hws h => exact .closing (hcons hws) h
  | literal hws hb h => exact .literal (hcons hws) hb h
  | atom hws _ hw h => exact .atom (hcons hws) (fun _ => List.cons_ne_nil _ _) hw h

theorem Text.Blanks.isDelimiter_head (hws : Text.Blanks ws) {d : Char}
    (hd : Token.isDelimiter d = true) : ∀ c ∈ (ws ++ d :: src).head?, Token.isDelimiter c = true := by
  cases ws with
  | nil => simpa using hd
  | cons w ws => simp [Token.isDelimiter, hws w (by simp)]

/-- What may follow an atom starts with a delimiter, or is empty. -/
theorem Lexes.isDelimiter_head (h : Lexes true src tokens) :
    ∀ c ∈ src.head?, Token.isDelimiter c = true := by
  cases h with
  | done hws =>
    intro c hc
    simp [Token.isDelimiter, hws c (List.mem_of_mem_head? hc)]
  | opening hws | closing hws | literal hws => exact hws.isDelimiter_head (by decide)
  | @atom _ ws _ _ _ hws hsep =>
    cases ws with
    | nil => exact absurd rfl (hsep rfl)
    | cons w ws => simp [Token.isDelimiter, hws w (by simp)]

/-- A text that starts with a delimiter may follow an atom. -/
theorem Lexes.after_atom (h : Lexes afterAtom (c :: src) tokens)
    (hc : Token.isDelimiter c = true) : Lexes true (c :: src) tokens := by
  generalize ht : c :: src = text at h ⊢
  cases h with
  | done hws => exact .done hws
  | opening hws h => exact .opening hws h
  | closing hws h => exact .closing hws h
  | literal hws hb h => exact .literal hws hb h
  | @atom _ ws word _ _ hws _ hw h =>
    refine .atom hws (fun _ => ?_) hw h
    rintro rfl
    obtain ⟨hne, hall⟩ := hw
    obtain ⟨d, word, rfl⟩ := List.exists_cons_of_ne_nil hne
    obtain rfl : c = d := (List.cons.inj ht).1
    have := Token.isDelimiter_eq_false_iff.2 (hall c (by simp))
    rw [hc] at this
    cases this

/-! ## Completeness -/

theorem Lexer.foldl_feed_blanks (hws : Text.Blanks ws) :
    ws.foldl feed ⟨ts, .between, offset⟩ = ⟨ts, .between, offset + ws.length⟩ := by
  induction ws generalizing offset with
  | nil => rfl
  | cons w ws ih =>
    obtain ⟨hw, hws⟩ := List.forall_mem_cons.1 hws
    have hfeed : feed ⟨ts, .between, offset⟩ w = ⟨ts, .between, offset + 1⟩ := by
      have hparen : w ≠ '(' ∧ w ≠ ')' ∧ w ≠ '"' := by
        refine ⟨?_, ?_, ?_⟩ <;> rintro rfl <;> exact absurd hw (by decide)
      simp [feed, feedBetween, hparen, hw]
    rw [List.foldl_cons, hfeed, ih hws, List.length_cons, Nat.add_assoc, Nat.add_comm 1]

theorem Lexer.foldl_feed_word (hw : ∀ c ∈ word, Token.isDelimiter c = false) :
    word.foldl feed ⟨ts, .inAtom read, offset⟩ =
      ⟨ts, .inAtom (word.reverse ++ read), offset + word.length⟩ := by
  induction word generalizing read offset with
  | nil => rfl
  | cons c word ih =>
    obtain ⟨hc, hw⟩ := List.forall_mem_cons.1 hw
    have hfeed : feed ⟨ts, .inAtom read, offset⟩ c = ⟨ts, .inAtom (c :: read), offset + 1⟩ := by
      simp [feed, hc]
    rw [List.foldl_cons, hfeed, ih hw]
    simp [Nat.add_comm, Nat.add_left_comm]

/-- In a literal a lexer takes the body and keeps the content. -/
theorem Lexer.foldl_feed_body (hb : Escapes body content) :
    body.foldl feed ⟨ts, .inLiteral start read, offset⟩ =
      ⟨ts, .inLiteral start (content.reverse ++ read), offset + body.length⟩ := by
  induction hb generalizing read offset with
  | nil => rfl
  | @plain c body content hq hb _ ih =>
    have hfeed : feed ⟨ts, .inLiteral start read, offset⟩ c =
        ⟨ts, .inLiteral start (c :: read), offset + 1⟩ := by
      simp [feed, hq, hb]
    rw [List.foldl_cons, hfeed, ih]
    simp [Nat.add_comm, Nat.add_left_comm]
  | @escaped c body content _ ih =>
    have hfeed : feed (feed ⟨ts, .inLiteral start read, offset⟩ '\\') c =
        ⟨ts, .inLiteral start (c :: read), offset + 1 + 1⟩ := by
      simp [feed]
    rw [List.foldl_cons, List.foldl_cons, hfeed, ih]
    simp [Nat.add_comm, Nat.add_left_comm]

/-- A lexer that is in an atom goes on, at a delimiter or at the end, as if the atom were
finished. -/
theorem Lexer.finish_foldl_inAtom (hsrc : ∀ c ∈ src.head?, Token.isDelimiter c = true) :
    (src.foldl feed ⟨ts, .inAtom read, offset⟩).finish =
      (src.foldl feed ⟨.atom read.reverse :: ts, .between, offset⟩).finish := by
  cases src with
  | nil => rfl
  | cons c src =>
    have hfeed : feed ⟨ts, .inAtom read, offset⟩ c =
        feed ⟨.atom read.reverse :: ts, .between, offset⟩ c := by
      simp only [feed, hsrc c (by simp), if_true]
    rw [List.foldl_cons, List.foldl_cons, hfeed]

/-- A lexer finds the tokens of a text. -/
theorem Lexes.finish_foldl (h : Lexes afterAtom src tokens) (ts : List Token) (offset : Nat) :
    (src.foldl Lexer.feed ⟨ts, .between, offset⟩).finish = .ok (ts.reverse ++ tokens) := by
  induction h generalizing ts offset with
  | done hws =>
    rw [Lexer.foldl_feed_blanks hws]
    simp [Lexer.finish]
  | opening hws _ ih =>
    rw [List.foldl_append, Lexer.foldl_feed_blanks hws]
    simpa [Lexer.feed, Lexer.feedBetween] using ih (.opening :: ts) _
  | closing hws _ ih =>
    rw [List.foldl_append, Lexer.foldl_feed_blanks hws]
    simpa [Lexer.feed, Lexer.feedBetween] using ih (.closing :: ts) _
  | @literal _ ws body content src tokens hws hb _ ih =>
    rw [List.foldl_append, Lexer.foldl_feed_blanks hws, List.foldl_cons, List.foldl_append]
    have hopen (offset : Nat) : Lexer.feed ⟨ts, .between, offset⟩ '"' =
        ⟨ts, .inLiteral offset [], offset + 1⟩ := by
      simp [Lexer.feed, Lexer.feedBetween]
    rw [hopen, Lexer.foldl_feed_body hb]
    simpa [Lexer.feed] using ih (.literal content :: ts) _
  | @atom _ ws word src tokens hws _ hw h ih =>
    obtain ⟨hne, hall⟩ := hw
    obtain ⟨c, word, rfl⟩ := List.exists_cons_of_ne_nil hne
    obtain ⟨⟨hblank, hparen⟩, hall⟩ := List.forall_mem_cons.1 hall
    have hstart (offset : Nat) : Lexer.feed ⟨ts, .between, offset⟩ c =
        ⟨ts, .inAtom [c], offset + 1⟩ := by
      simp [Lexer.feed, Lexer.feedBetween, hblank, hparen]
    rw [List.foldl_append, Lexer.foldl_feed_blanks hws, List.foldl_append, List.foldl_cons, hstart,
      Lexer.foldl_feed_word fun d hd => Token.isDelimiter_eq_false_iff.2 (hall d hd),
      Lexer.finish_foldl_inAtom h.isDelimiter_head]
    simpa using ih (.atom (c :: word) :: ts) _

/-! ## Soundness -/

/-- What a text adds to a lexer that stands in a literal: the rest of the body, the closing quote
and further tokens. -/
def Lexer.ClosesLiteral (read src : List Char) (tokens : List Token) : Prop :=
  ∃ body content rest tail, src = body ++ '"' :: rest ∧ Escapes body content ∧
    tokens = .literal (read.reverse ++ content) :: tail ∧ Lexes false rest tail

/-- What a text adds to a lexer in each of its modes, the unfinished token included. -/
def Lexer.Mode.Continues : Lexer.Mode → List Char → List Token → Prop
  | .between, src, tokens => Lexes false src tokens
  | .inAtom read, src, tokens =>
    ∃ more rest tail, src = more ++ rest ∧ (∀ c ∈ more, Token.isDelimiter c = false) ∧
      tokens = .atom (read.reverse ++ more) :: tail ∧ Lexes true rest tail
  | .inLiteral _ read, src, tokens => Lexer.ClosesLiteral read src tokens
  | .escaping _ read, src, tokens =>
    ∃ c rest, src = c :: rest ∧ Lexer.ClosesLiteral (c :: read) rest tokens

/-- A lexer comes to these tokens when it takes this text. -/
def Lexer.Reads (l : Lexer) (src : List Char) (tokens : List Token) : Prop :=
  ∃ added, tokens = l.tokens.reverse ++ added ∧ l.mode.Continues src added

/-- At the end of the text a lexer has its tokens. -/
theorem Lexer.Reads.of_finish {l : Lexer} (h : l.finish = .ok tokens) : l.Reads [] tokens := by
  obtain ⟨ts, mode, offset⟩ := l
  cases mode with
  | between =>
    cases h
    exact ⟨[], by simp, .done Text.blanks_nil⟩
  | inAtom read =>
    cases h
    exact ⟨[.atom read.reverse], by simp, [], [], [], rfl, by simp, by simp,
      .done Text.blanks_nil⟩
  | inLiteral | escaping => cases h

/-- A character between tokens starts the token, or is the blank, that the grammar has there. -/
theorem Lexer.Reads.of_feedBetween (h : (feedBetween ts offset c).Reads src tokens) :
    ∃ added, tokens = ts.reverse ++ added ∧ Lexes false (c :: src) added := by
  unfold feedBetween at h
  split_ifs at h with hopen hclose hquote hblank
  · obtain ⟨added, rfl, h⟩ := h
    subst hopen
    exact ⟨.opening :: added, by simp, .opening Text.blanks_nil h⟩
  · obtain ⟨added, rfl, h⟩ := h
    subst hclose
    exact ⟨.closing :: added, by simp, .closing Text.blanks_nil h⟩
  · obtain ⟨_, rfl, body, content, rest, tail, rfl, hb, rfl, h⟩ := h
    subst hquote
    exact ⟨.literal content :: tail, by simp, .literal Text.blanks_nil hb h⟩
  · obtain ⟨added, rfl, h⟩ := h
    exact ⟨added, rfl, Lexes.blank_cons hblank h false⟩
  · obtain ⟨_, rfl, more, rest, tail, rfl, hmore, rfl, h⟩ := h
    have hword : Token.IsWord (c :: more) := by
      refine ⟨List.cons_ne_nil _ _, List.forall_mem_cons.2 ⟨⟨?_, hopen, hclose, hquote⟩, ?_⟩⟩
      · simpa using hblank
      · exact fun d hd => Token.isDelimiter_eq_false_iff.1 (hmore d hd)
    have hlexes : Lexes false ([] ++ (c :: more ++ rest)) (.atom (c :: more) :: tail) :=
      .atom Text.blanks_nil (by simp) hword h
    exact ⟨.atom (c :: more) :: tail, by simp, hlexes⟩

/-- A step of a lexer takes one character off the text that it reads. -/
theorem Lexer.Reads.of_feed {l : Lexer} (h : (l.feed c).Reads src tokens) :
    l.Reads (c :: src) tokens := by
  obtain ⟨ts, mode, offset⟩ := l
  cases mode with
  | between => exact Lexer.Reads.of_feedBetween h
  | inAtom read =>
    simp only [feed] at h
    split_ifs at h with hc
    · obtain ⟨added, rfl, hrest⟩ := Lexer.Reads.of_feedBetween h
      exact ⟨.atom read.reverse :: added, by simp, [], c :: src, added, rfl, by simp, by simp,
        hrest.after_atom hc⟩
    · obtain ⟨_, rfl, more, rest, tail, rfl, hmore, rfl, h⟩ := h
      exact ⟨_, rfl, c :: more, rest, tail, rfl,
        List.forall_mem_cons.2 ⟨by simpa using hc, hmore⟩, by simp, h⟩
  | inLiteral start read =>
    simp only [feed] at h
    split_ifs at h with hquote hslash
    · obtain ⟨added, rfl, h⟩ := h
      subst hquote
      exact ⟨.literal read.reverse :: added, by simp, [], [], src, added, rfl, .nil, by simp, h⟩
    · obtain ⟨_, rfl, d, _, rfl, body, content, rest, tail, rfl, hb, rfl, h⟩ := h
      subst hslash
      exact ⟨_, rfl, '\\' :: d :: body, d :: content, rest, tail, rfl, hb.escaped, by simp, h⟩
    · obtain ⟨_, rfl, body, content, rest, tail, rfl, hb, rfl, h⟩ := h
      exact ⟨_, rfl, c :: body, c :: content, rest, tail, rfl, hb.plain hquote hslash, by simp, h⟩
  | escaping start read =>
    obtain ⟨added, rfl, h⟩ := h
    exact ⟨added, rfl, c, src, rfl, h⟩

/-- The tokens that a lexer ends with are those of the text that it has read. -/
theorem Lexer.reads_of_finish_foldl {l : Lexer} (h : (src.foldl feed l).finish = .ok tokens) :
    l.Reads src tokens := by
  induction src generalizing l with
  | nil => exact .of_finish h
  | cons c src ih => exact .of_feed (ih h)

/-- A text is cut into tokens as the grammar says, or not at all if the grammar gives it none. -/
theorem scan_eq_ok_iff : Token.scan src = .ok tokens ↔ Lexes false src tokens := by
  constructor
  · intro h
    obtain ⟨added, rfl, h⟩ := Lexer.reads_of_finish_foldl h
    exact h
  · intro h
    exact h.finish_foldl [] 0

end

end StackBreeder
