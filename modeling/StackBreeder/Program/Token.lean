import StackBreeder.Text.Blank

/-!
# Tokens

Program text is made of parentheses, string literals and atoms, and blanks between them. A `Lexer`
takes the text one character at a time: `Lexer.feed` is a single step, so that what it does to a
text is the fold of its steps, and feeding two texts after each other is feeding them joined.

A string literal runs from a double quote to the next one. Inside it a backslash gives the
character after it, whichever it is. An atom is a run of characters, as long as possible, that are
neither blank nor parentheses nor double quotes.
-/

namespace StackBreeder

/-- The words of program text. -/
inductive Token where
  | opening
  | closing
  /-- A string literal, without its quotes and its escaping backslashes. -/
  | literal (content : List Char)
  /-- A run of characters that is neither a parenthesis nor a string literal. -/
  | atom (chars : List Char)
  deriving DecidableEq, Repr

/-- A character that ends an atom. -/
def Token.isDelimiter (c : Char) : Bool :=
  c = '(' || c = ')' || c = '"' || Text.isBlank c

/-- Where a lexer stands. What has been read of an unfinished token is kept latest first, a string
literal with the offset of its opening quote. -/
inductive Lexer.Mode where
  | between
  | inAtom (read : List Char)
  | inLiteral (start : Nat) (read : List Char)
  /-- After a backslash in a string literal. -/
  | escaping (start : Nat) (read : List Char)
  deriving DecidableEq, Repr

/-- The state of a lexer: the finished tokens, latest first, where it stands, and how many
characters it has taken. -/
structure Lexer where
  tokens : List Token
  mode : Lexer.Mode
  offset : Nat
  deriving DecidableEq, Repr

namespace Lexer

/-- A lexer that has taken nothing. -/
def start : Lexer := ⟨[], .between, 0⟩

/-- Takes a character that stands between tokens. -/
def feedBetween (tokens : List Token) (offset : Nat) (c : Char) : Lexer :=
  if c = '(' then ⟨.opening :: tokens, .between, offset + 1⟩
  else if c = ')' then ⟨.closing :: tokens, .between, offset + 1⟩
  else if c = '"' then ⟨tokens, .inLiteral offset [], offset + 1⟩
  else if Text.isBlank c then ⟨tokens, .between, offset + 1⟩
  else ⟨tokens, .inAtom [c], offset + 1⟩

/-- Takes one character. -/
def feed : Lexer → Char → Lexer
  | ⟨tokens, .between, offset⟩, c => feedBetween tokens offset c
  | ⟨tokens, .inAtom read, offset⟩, c =>
    if Token.isDelimiter c then feedBetween (.atom read.reverse :: tokens) offset c
    else ⟨tokens, .inAtom (c :: read), offset + 1⟩
  | ⟨tokens, .inLiteral start read, offset⟩, c =>
    if c = '"' then ⟨.literal read.reverse :: tokens, .between, offset + 1⟩
    else if c = '\\' then ⟨tokens, .escaping start read, offset + 1⟩
    else ⟨tokens, .inLiteral start (c :: read), offset + 1⟩
  | ⟨tokens, .escaping start read, offset⟩, c =>
    ⟨tokens, .inLiteral start (c :: read), offset + 1⟩

/-- The tokens in order at the end of the text, or the offset of the quote that nothing closes. -/
def finish : Lexer → Except Nat (List Token)
  | ⟨tokens, .between, _⟩ => .ok tokens.reverse
  | ⟨tokens, .inAtom read, _⟩ => .ok (.atom read.reverse :: tokens).reverse
  | ⟨_, .inLiteral start _, _⟩ | ⟨_, .escaping start _, _⟩ => .error start

end Lexer

/-- The tokens of a text, or the offset of a double quote that starts a literal without end. -/
def Token.scan (src : List Char) : Except Nat (List Token) :=
  (src.foldl Lexer.feed Lexer.start).finish

end StackBreeder
