import StackBreeder.Evolution.Run
import StackBreeder.Program.Printing
import StackBreeder.Text.FixedPoint
import StackBreeder.Text.Layout

/-!
# Texts about evolutions

How a generation and the end of an evolution are shown to a reader: a report of several lines under
a centred title, a report in one line, and a final summary in one line.
-/

namespace StackBreeder

namespace Report

/-- The width of a report. -/
def width : Nat := 55

/-- The line above and below the title. -/
def rule : String := String.ofList (List.replicate width '-')

/-- The line with the number of the generation. -/
def title (r : Report) : String :=
  String.ofList (Text.centre width ("Report for Generation " ++ toString r.generation).toList)

/-- The lines of a report. A verbose one goes on to the means. -/
def lines (r : Report) (verbose : Bool) : List String :=
  ["", rule, r.title, rule,
   "Best program: " ++ Program.print r.best.program,
   "Best program size: " ++ toString r.bestSize,
   "Best total error: " ++ toString r.bestTotal,
   "Best errors: (" ++ String.intercalate " " (r.bestErrors.map toString) ++ ")"] ++
  if verbose then
    ["Mean total error: " ++ toString r.meanTotal,
     "Average program size: " ++ Text.fixed 2 r.meanSize]
  else []

/-- A report as one text. -/
def text (r : Report) (verbose : Bool) : String := String.intercalate "\n" (r.lines verbose)

/-- A report in one line. The number of the generation has at least three digits. -/
def brief (r : Report) : String :=
  "GEN " ++ String.ofList (Text.padLeft '0' 3 (toString r.generation).toList) ++
    " best=" ++ toString r.bestTotal ++ " size=" ++ toString r.bestSize

end Report

/-- The line about the end of an evolution: how it ended, the number of its last generation, and the
best individual. -/
def summary (phase : Phase) (generation : Int) (best : Individual) : String :=
  "FINAL status=" ++ phase.capitals ++ " generation=" ++ toString generation ++
    " best=" ++ toString best.total ++ " size=" ++ toString best.program.length

/-- The summary of an evolution. -/
def Run.summary (run : Run) : String :=
  StackBreeder.summary run.phase run.last.number run.last.best

end StackBreeder
