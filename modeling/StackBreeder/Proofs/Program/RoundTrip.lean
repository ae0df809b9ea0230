import StackBreeder.Program.Printing
import StackBreeder.Proofs.Program.Grammar
import StackBreeder.Proofs.Program.Parts

/-!
# Reading what was printed

The printed form of a program is in the grammar if every symbol of the program has a readable name
(`writes_chars`). Nothing else is ever read: the symbols of a program that the grammar derives from
some text are readable (`Writes.readable`). So a program survives printing and reading exactly if
its symbols are readable, and what was read always does (`read_print_iff`).
-/

namespace StackBreeder

section
variable {afterAtom : Bool} {c : Char} {src : List Char} {vs : List Value} {p : Program}

/-- What may stand after a word may stand anywhere. -/
theorem Items.weaken (h : Items true src vs) : Items false src vs := by
  cases h with
  | done hws => exact .done hws
  | block hws hi h => exact .block hws hi h
  | literal hws hb h => exact .literal hws hb h
  | atom hws _ hw hv h => exact .atom hws (by simp) hw hv h

/-- Blanks may be put before items, and separate them from a word. -/
theorem Items.blank_cons (hc : Text.isBlank c = true) (h : Items afterAtom src vs)
    (before : Bool) : Items before (c :: src) vs := by
  obtain ⟨tokens, hl, hs⟩ := h.exists_lexes
  exact hs.items (hl.blank_cons hc before)

/-! ## Printed programs are in the grammar -/

/-- An escaped text is the body of a literal with that content. -/
theorem escapes_escapeLiteral (content : List Char) : Escapes (escapeLiteral content) content := by
  induction content with
  | nil => exact .nil
  | cons c content ih =>
    rw [escapeLiteral, List.flatMap_cons]
    split_ifs with hc
    · exact ih.escaped
    · exact ih.plain (fun h => hc (.inr h)) (fun h => hc (.inl h))

/-- Items one by one, with a space between neighbours, are items. -/
theorem items_itemChars {items : List Value}
    (h : ∀ v ∈ items, ∀ {src vs}, Items true src vs → Items false (v.chars ++ src) (v :: vs)) :
    Items false (Value.itemChars items) items := by
  have hend : Items true [] [] := .done Text.blanks_nil
  induction items with
  | nil => exact hend.weaken
  | cons v items ih =>
    obtain ⟨hv, hitems⟩ := List.forall_mem_cons.1 h
    cases items with
    | nil => simpa [Value.itemChars] using hv hend
    | cons w items =>
      exact hv ((ih hitems).blank_cons (by decide) true)

/-- The written form of a value is an item if its symbols are readable. Before a text that may
follow a word it may always stand. -/
theorem Value.items_chars (v : Value) (hv : ∀ name, .sym name ∈ v.parts → Readable name)
    (h : Items true src vs) : Items false (v.chars ++ src) (v :: vs) := by
  induction v using Value.induction generalizing src vs with
  | int n => exact .atom Text.blanks_nil (by simp) (isWord_numeral n) (denotes_numeral n) h
  | text content =>
    have hbody := escapes_escapeLiteral content.toList
    have hitem : Items false ([] ++ '"' :: (escapeLiteral content.toList ++ '"' :: src))
        (.text (String.ofList content.toList) :: vs) := .literal Text.blanks_nil hbody h.weaken
    simpa [Value.chars] using hitem
  | sym name =>
    obtain ⟨hw, hn⟩ := hv name (by simp)
    have hd := Denotes.sym hn
    rw [String.ofList_toList] at hd
    exact .atom Text.blanks_nil (by simp) hw hd h
  | block items ih =>
    have hinner : Items false (Value.itemChars items) items := by
      refine items_itemChars fun w hw src vs h => ih w hw (fun name hname => hv name ?_) h
      rw [Value.parts_block]
      exact .tail _ (Program.mem_parts_iff.2 ⟨w, hw, hname⟩)
    have hitem : Items false ([] ++ '(' :: (Value.itemChars items ++ ')' :: src))
        (.block items :: vs) := .block Text.blanks_nil hinner h.weaken
    simpa [Value.chars] using hitem

/-- The written form of a program with readable symbols is in the grammar. -/
theorem writes_chars (h : ∀ name, .sym name ∈ p.parts → Readable name) :
    Writes (Program.chars p) p := by
  refine .intro Text.blanks_nil (items_itemChars fun v hv src vs hsrc => ?_) Text.blanks_nil
  exact v.items_chars (fun name hname => h name (Program.mem_parts_iff.2 ⟨v, hv, hname⟩)) hsrc

/-! ## What is read is readable -/

/-- A word that denotes a symbol is a readable name. -/
theorem Denotes.readable {word : List Char} {v : Value} (h : Denotes word v)
    (hw : Token.IsWord word) {name : String} (hname : .sym name ∈ v.parts) : Readable name := by
  cases h with
  | int => simp [Value.parts] at hname
  | sym hn =>
    obtain rfl : name = String.ofList word := by simpa using hname
    rw [Readable, String.toList_ofList]
    exact ⟨hw, hn⟩

/-- The symbols among the items that a text writes are readable. -/
theorem Items.readable (h : Items afterAtom src vs) :
    ∀ name, .sym name ∈ Program.parts vs → Readable name := by
  induction h with
  | done => simp
  | block _ _ _ ihi ih =>
    intro name hname
    rcases List.mem_append.1 hname with hname | hname
    · exact ihi name (by simpa using hname)
    · exact ih name hname
  | literal _ _ _ ih => simpa [Value.parts] using ih
  | atom _ _ hw hv _ ih =>
    intro name hname
    rcases List.mem_append.1 hname with hname | hname
    · exact hv.readable hw hname
    · exact ih name hname

/-- The symbols of a program that a text writes are readable. -/
theorem Writes.readable (h : Writes src p) : ∀ name, .sym name ∈ p.parts → Readable name := by
  obtain ⟨-, hi, -⟩ := h
  exact hi.readable

end

/-- A printed program is read as itself if and only if every symbol that occurs in it has a readable
name. A program that was read from some text always is. -/
theorem read_print_iff (p : Program) :
    (Program.read p.print = .ok p ↔ ∀ name, .sym name ∈ p.parts → Readable name) ∧
      ∀ src : String, Program.read src = .ok p → Program.read p.print = .ok p := by
  have hread : Program.read p.print = Program.ofChars (Program.chars p) := by
    rw [Program.read, Program.print, String.toList_ofList]
  have hprint (h : ∀ name, .sym name ∈ p.parts → Readable name) :
      Program.read p.print = .ok p := by
    rw [hread]
    exact (writes_chars h).ofChars
  refine ⟨⟨fun h => ?_, hprint⟩, fun src h => hprint ?_⟩
  · rw [hread] at h
    exact (writes_of_ofChars h).readable
  · exact (writes_of_ofChars h).readable

-- Between a symbol and a number a second sign decides, and blanks never belong to a name.
example : Readable "+-5" ∧ ¬ Readable "+5" ∧ ¬ Readable "in 1" ∧ ¬ Readable "" := by decide

end StackBreeder
