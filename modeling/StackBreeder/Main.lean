import StackBreeder.CommandLine.Session

/-!
# The command

Runs the session of the command line. What it prints goes to the standard output; the log, and why a
session was refused, to the standard error.
-/

open StackBreeder

/-- The exit code is zero unless the session is refused. -/
def main (args : List String) : IO UInt32 := do
  match CommandLine.session args with
  | .ok transcript =>
    for entry in transcript.log do
      IO.eprintln entry.line
    IO.print transcript.output
    return 0
  | .error refusal =>
    IO.print (CommandLine.printed refusal.prints)
    IO.eprintln refusal.message
    return refusal.exitCode
