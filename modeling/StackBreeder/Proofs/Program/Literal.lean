import StackBreeder.Proofs.Program.Lexing

/-!
# String literals without end

A lexer fails on a text for one reason only: tokens stand before a double quote, and no double quote
after it ends the literal that it opens (`UnclosedAt`). It then reports the offset of the first of
the two (`scan_eq_error_iff`). Whether the literal ends is a matter of the text after the opening
quote (`HasClosingQuote`), where the body of a literal may be passed over
(`hasClosingQuote_append`).
-/

namespace StackBreeder

/-- A double quote ends the literal whose text starts here: the body of a literal is before it. -/
def HasClosingQuote (after : List Char) : Prop :=
  ∃ body content rest, after = body ++ '"' :: rest ∧ Escapes body content

/-- The double quote at this offset opens a string literal that nothing closes: the text before it
consists of tokens. -/
def UnclosedAt (src : List Char) (offset : Nat) : Prop :=
  ∃ front tokens after, src = front ++ '"' :: after ∧ front.length = offset ∧
    Lexes false front tokens ∧ ¬ HasClosingQuote after

section
variable {c : Char} {src after body content tail : List Char} {ts tokens : List Token}
  {offset start : Nat} {read : List Char} {l : Lexer}

/-! ## Closing quotes -/

theorem not_hasClosingQuote_nil : ¬ HasClosingQuote [] := by
  rintro ⟨body, content, rest, h, -⟩
  simp at h

theorem hasClosingQuote_plain (hq : c ≠ '"') (hb : c ≠ '\\') :
    HasClosingQuote (c :: after) ↔ HasClosingQuote after := by
  constructor
  · rintro ⟨body, content, rest, h, hbody⟩
    cases hbody with
    | nil => exact absurd (List.cons.inj h).1 hq
    | plain _ _ hbody => exact ⟨_, _, rest, (List.cons.inj h).2, hbody⟩
    | escaped => exact absurd (List.cons.inj h).1 hb
  · rintro ⟨body, content, rest, rfl, hbody⟩
    exact ⟨_, _, rest, rfl, hbody.plain hq hb⟩

theorem hasClosingQuote_escaped :
    HasClosingQuote ('\\' :: c :: after) ↔ HasClosingQuote after := by
  constructor
  · rintro ⟨body, content, rest, h, hbody⟩
    cases hbody with
    | nil => exact absurd (List.cons.inj h).1 (by decide)
    | plain _ hb => exact absurd (List.cons.inj h).1.symm hb
    | escaped hbody => exact ⟨_, _, rest, (List.cons.inj (List.cons.inj h).2).2, hbody⟩
  · rintro ⟨body, content, rest, rfl, hbody⟩
    exact ⟨_, _, rest, rfl, hbody.escaped⟩

/-- A backslash at the very end of a text gives nothing, and ends no literal. -/
theorem not_hasClosingQuote_backslash : ¬ HasClosingQuote ['\\'] := by
  rintro ⟨body, content, rest, h, hbody⟩
  cases hbody with
  | nil => exact absurd (List.cons.inj h).1 (by decide)
  | plain _ hb => exact hb (List.cons.inj h).1.symm
  | escaped => simp at h

/-- The body of a literal has no closing quote in it. -/
theorem hasClosingQuote_append (h : Escapes body content) :
    HasClosingQuote (body ++ tail) ↔ HasClosingQuote tail := by
  induction h with
  | nil => rfl
  | plain hq hb _ ih => exact (hasClosingQuote_plain hq hb).trans ih
  | escaped _ ih => exact hasClosingQuote_escaped.trans ih

/-- A text without closing quote is the body of a literal, and perhaps a backslash that gives
nothing. -/
theorem exists_escapes_of_not_hasClosingQuote : ∀ {after : List Char}, ¬ HasClosingQuote after →
    ∃ body content, Escapes body content ∧ (after = body ∨ after = body ++ ['\\'])
  | [], _ => ⟨[], [], .nil, .inl rfl⟩
  | c :: after, h => by
    by_cases hq : c = '"'
    · exact absurd ⟨[], [], after, by rw [hq]; rfl, .nil⟩ h
    by_cases hb : c = '\\'
    · subst hb
      cases after with
      | nil => exact ⟨[], [], .nil, .inr rfl⟩
      | cons d after =>
        obtain ⟨body, content, hbody, hafter⟩ :=
          exists_escapes_of_not_hasClosingQuote (mt hasClosingQuote_escaped.2 h)
        exact ⟨'\\' :: d :: body, _, hbody.escaped, by simpa using hafter⟩
    · obtain ⟨body, content, hbody, hafter⟩ :=
        exists_escapes_of_not_hasClosingQuote (mt (hasClosingQuote_plain hq hb).2 h)
      exact ⟨_, _, hbody.plain hq hb, by simpa using hafter⟩

theorem Escapes.append {body' content' : List Char} (h : Escapes body content)
    (h' : Escapes body' content') : Escapes (body ++ body') (content ++ content') := by
  induction h with
  | nil => exact h'
  | plain hq hb _ ih => exact .plain hq hb ih
  | escaped _ ih => exact .escaped ih

/-! ## The lexer -/

theorem Lexer.offset_feedBetween (ts : List Token) (offset : Nat) (c : Char) :
    (feedBetween ts offset c).offset = offset + 1 := by
  unfold feedBetween
  split_ifs <;> rfl

theorem Lexer.offset_feed (l : Lexer) (c : Char) : (l.feed c).offset = l.offset + 1 := by
  obtain ⟨ts, mode, offset⟩ := l
  cases mode with
  | between => exact offset_feedBetween ts offset c
  | inAtom read =>
    simp only [feed]
    split
    · exact offset_feedBetween _ offset c
    · rfl
  | inLiteral start read =>
    simp only [feed]
    split_ifs <;> rfl
  | escaping start read => rfl

/-- The offset of a lexer is the number of the characters that it has taken. -/
theorem Lexer.offset_foldl_feed (src : List Char) (l : Lexer) :
    (src.foldl feed l).offset = l.offset + src.length := by
  induction src generalizing l with
  | nil => rfl
  | cons c src ih =>
    rw [List.foldl_cons, ih, offset_feed, List.length_cons]
    omega

/-- A double quote after tokens opens a literal. -/
theorem Lexer.feed_quote (h : l.finish = .ok tokens) :
    l.feed '"' = ⟨tokens.reverse, .inLiteral l.offset [], l.offset + 1⟩ := by
  obtain ⟨ts, mode, offset⟩ := l
  cases mode with
  | between =>
    cases h
    simp [feed, feedBetween]
  | inAtom read =>
    cases h
    simp [feed, feedBetween, Token.isDelimiter]
  | inLiteral | escaping => cases h

/-- A lexer in a literal without closing quote fails at the offset of the opening quote. -/
theorem Lexer.finish_foldl_inLiteral (h : ¬ HasClosingQuote src) :
    (src.foldl feed ⟨ts, .inLiteral start read, offset⟩).finish = .error start := by
  obtain ⟨body, content, hbody, rfl | rfl⟩ := exists_escapes_of_not_hasClosingQuote h
  · rw [foldl_feed_body hbody]
    rfl
  · rw [List.foldl_append, foldl_feed_body hbody]
    simp [feed, finish]

/-- A literal without end makes the lexer fail. -/
theorem UnclosedAt.scan (h : UnclosedAt src offset) : Token.scan src = .error offset := by
  obtain ⟨front, tokens, after, rfl, rfl, hfront, hafter⟩ := h
  have hopen := Lexer.feed_quote (scan_eq_ok_iff.2 hfront)
  rw [Lexer.offset_foldl_feed, show Lexer.start.offset = 0 from rfl, Nat.zero_add] at hopen
  rw [Token.scan, List.foldl_append, List.foldl_cons, hopen]
  exact Lexer.finish_foldl_inLiteral hafter

/-- The text that a lexer has taken when it is in a literal: tokens, the opening quote, and a part
of a body. -/
def Lexer.TakenInLiteral (start : Nat) (read src : List Char) : Prop :=
  ∃ front tokens body, src = front ++ '"' :: body ∧ front.length = start ∧
    Lexes false front tokens ∧ Escapes body read.reverse

/-- The text that a lexer has taken, by its mode, as far as literals are concerned. -/
def Lexer.Mode.HasTaken : Lexer.Mode → List Char → Prop
  | .between, _ | .inAtom _, _ => True
  | .inLiteral start read, src => Lexer.TakenInLiteral start read src
  | .escaping start read, src =>
    ∃ src', src = src' ++ ['\\'] ∧ Lexer.TakenInLiteral start read src'

theorem Lexer.hasTaken_feedBetween (hlexes : ∃ tokens, Lexes false src tokens)
    (hoffset : src.length = offset) : (feedBetween ts offset c).mode.HasTaken (src ++ [c]) := by
  unfold feedBetween
  split_ifs with hopen hclose hquote hblank
  · trivial
  · trivial
  · obtain ⟨tokens, hlexes⟩ := hlexes
    exact ⟨src, tokens, [], by rw [hquote], hoffset, hlexes, .nil⟩
  · trivial
  · trivial

/-- A step of a lexer adds one character to the text that it has taken. -/
theorem Lexer.hasTaken_feed (hl : src.foldl feed Lexer.start = l) (h : l.mode.HasTaken src) :
    (l.feed c).mode.HasTaken (src ++ [c]) := by
  have hoffset : src.length = l.offset := by
    rw [← hl, offset_foldl_feed]
    exact (Nat.zero_add _).symm
  have hlexes {tokens : List Token} (hfinish : l.finish = .ok tokens) :
      ∃ tokens, Lexes false src tokens :=
    ⟨tokens, scan_eq_ok_iff.1 (by rw [Token.scan, hl, hfinish])⟩
  obtain ⟨ts, mode, offset⟩ := l
  cases mode with
  | between => exact hasTaken_feedBetween (hlexes rfl) hoffset
  | inAtom read =>
    simp only [feed]
    split
    · exact hasTaken_feedBetween (hlexes rfl) hoffset
    · trivial
  | inLiteral start read =>
    obtain ⟨front, tokens, body, rfl, hstart, hfront, hbody⟩ := h
    simp only [feed]
    split_ifs with hquote hslash
    · trivial
    · exact ⟨_, by rw [hslash], front, tokens, body, rfl, hstart, hfront, hbody⟩
    · refine ⟨front, tokens, body ++ [c], by simp, hstart, hfront, ?_⟩
      simpa using hbody.append (.plain hquote hslash .nil)
  | escaping start read =>
    obtain ⟨src, rfl, front, tokens, body, rfl, hstart, hfront, hbody⟩ := h
    refine ⟨front, tokens, body ++ ['\\', c], by simp, hstart, hfront, ?_⟩
    simpa using hbody.append (.escaped .nil)

theorem Lexer.hasTaken_foldl_feed (src : List Char) :
    (src.foldl feed Lexer.start).mode.HasTaken src := by
  induction src using List.reverseRecOn with
  | nil => trivial
  | append_singleton src c ih =>
    rw [List.foldl_append]
    exact hasTaken_feed rfl ih

/-- The lexer fails exactly if a string literal has no end, and reports where it starts. -/
theorem scan_eq_error_iff : Token.scan src = .error offset ↔ UnclosedAt src offset := by
  refine ⟨fun h => ?_, UnclosedAt.scan⟩
  have htaken := Lexer.hasTaken_foldl_feed src
  rw [Token.scan] at h
  generalize src.foldl Lexer.feed Lexer.start = l at h htaken
  obtain ⟨ts, mode, n⟩ := l
  cases mode with
  | between | inAtom => cases h
  | inLiteral start read =>
    cases h
    obtain ⟨front, tokens, body, rfl, hstart, hfront, hbody⟩ := htaken
    refine ⟨front, tokens, body, rfl, hstart, hfront, ?_⟩
    have happend : HasClosingQuote (body ++ []) ↔ HasClosingQuote [] := hasClosingQuote_append hbody
    rw [List.append_nil] at happend
    exact mt happend.1 not_hasClosingQuote_nil
  | escaping start read =>
    cases h
    obtain ⟨_, rfl, front, tokens, body, rfl, hstart, hfront, hbody⟩ := htaken
    refine ⟨front, tokens, body ++ ['\\'], by simp, hstart, hfront, ?_⟩
    exact mt (hasClosingQuote_append hbody).1 not_hasClosingQuote_backslash

end

end StackBreeder
