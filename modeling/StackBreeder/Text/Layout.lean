/-!
# Layout

Filling a text up to a width, on one side or on both. A text that is longer stays whole
(`length_padLeft`, `length_centre`).
-/

namespace StackBreeder.Text

/-- A text with as many fill characters before it as it takes to reach a width. -/
def padLeft (fill : Char) (width : Nat) (content : List Char) : List Char :=
  List.replicate (width - content.length) fill ++ content

/-- A text in the middle of a line: spaces fill the line up, the odd one on the right. -/
def centre (width : Nat) (content : List Char) : List Char :=
  let space := width - content.length
  List.replicate (space / 2) ' ' ++ content ++ List.replicate (space - space / 2) ' '

/-- A padded text has the width, or its own length if that is more. -/
theorem length_padLeft (fill : Char) (width : Nat) (content : List Char) :
    (padLeft fill width content).length = max width content.length := by
  simp only [padLeft, List.length_append, List.length_replicate]
  omega

/-- A centred text has the width, or its own length if that is more. -/
theorem length_centre (width : Nat) (content : List Char) :
    (centre width content).length = max width content.length := by
  simp only [centre, List.length_append, List.length_replicate]
  omega

end StackBreeder.Text
