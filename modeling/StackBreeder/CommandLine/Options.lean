import StackBreeder.Breeding.Palette
import StackBreeder.Machine.Run
import StackBreeder.Regression.Case
import StackBreeder.Text.Argument

/-!
# Options

A command line is a list of words. An option is named by a word that starts with two hyphens; its
value is attached to it after an equals sign, or is the next word. An option may be shortened as
long as only one option starts so. A word that looks like a negative number, or has a space in it,
is a value even if it starts with a hyphen. Two hyphens alone end the options; attached to an option
they leave it without a value. There are no other arguments, and of several values for one option
the last counts.

`Word.ofText` says what a word is on its own, and `Options.ofWords` what the words say together.
-/

namespace StackBreeder.CommandLine

/-- The names of options. -/
inductive Flag where
  | help
  | populationSize
  | generations
  | maxProgramSize
  | tournamentSize
  | instructions
  | cases
  | fuel
  | penalty
  | seed
  | workers
  | executor
  | report
  | logLevel
  deriving DecidableEq, Repr

namespace Flag

/-- All options. -/
def all : List Flag :=
  [help, populationSize, generations, maxProgramSize, tournamentSize, instructions, cases, fuel,
   penalty, seed, workers, executor, report, logLevel]

/-- The word that names an option. -/
def name : Flag → String
  | help => "--help"
  | populationSize => "--population-size"
  | generations => "--generations"
  | maxProgramSize => "--max-initial-program-size"
  | tournamentSize => "--tournament-size"
  | instructions => "--instructions"
  | cases => "--cases"
  | fuel => "--fuel"
  | penalty => "--penalty"
  | seed => "--seed"
  | workers => "--workers"
  | executor => "--executor"
  | report => "--report"
  | logLevel => "--log-level"

/-- The options that a word names, in full or shortened. A full name stands for itself only. -/
def candidates (word : List Char) : List Flag :=
  match all.filter (·.name.toList == word) with
  | [] => all.filter (word.isPrefixOf ·.name.toList)
  | exact => exact

end Flag

/-- What a word of a command line is. -/
inductive Word where
  /-- An option, and the value attached to it. -/
  | flag (f : Flag) (attached : Option String)
  /-- The word that ends the options. -/
  | separator
  /-- A word that can be the value of an option. -/
  | value (text : String)
  /-- A word that starts like an option but names none. -/
  | unknown
  /-- A shortened name that fits several options. -/
  | ambiguous
  deriving DecidableEq, Repr

namespace Word

/-- Whether characters write a number without a sign: digits, or digits around a point of which
those before it may be missing. A line feed may follow. -/
def isUnsignedNumber (cs : List Char) : Bool :=
  let cs := if cs.getLast? = some '\n' then cs.dropLast else cs
  match cs.dropWhile Text.isDecimal with
  | [] => !cs.isEmpty
  | '.' :: places => !places.isEmpty && places.all Text.isDecimal
  | _ => false

/-- The part of a word before its first equals sign, and the part after it, if there is one. -/
def splitValue (cs : List Char) : List Char × Option String :=
  match cs.dropWhile (· ≠ '=') with
  | [] => (cs, none)
  | _ :: attached => (cs.takeWhile (· ≠ '='), some (String.ofList attached))

/-- What a word is that starts with a hyphen but names no option. -/
def other (cs : List Char) : Word :=
  if isUnsignedNumber cs.tail || cs.contains ' ' then value (String.ofList cs) else unknown

/-- Whether what follows `-h` in a word only asks for help again: more of that letter, if there is
any after an equals sign. -/
def asksAgain : List Char → Bool
  | '=' :: c :: rest => (c :: rest).all (· = 'h')
  | rest => rest.all (· = 'h')

/-- What a word of the given characters is. One hyphen and an `h` ask for help, too; anything else
after them in the word is taken for a value, which help does not take. -/
def ofChars : List Char → Word
  | ['-', '-'] => separator
  | '-' :: '-' :: rest =>
    let (name, attached) := splitValue ('-' :: '-' :: rest)
    match Flag.candidates name with
    | [] => other ('-' :: '-' :: rest)
    | [f] => flag f attached
    | _ => ambiguous
  | '-' :: 'h' :: rest =>
    flag .help (if asksAgain rest then none else some (String.ofList rest))
  | '-' :: c :: rest => other ('-' :: c :: rest)
  | cs => value (String.ofList cs)

/-- What a word is. -/
def ofText (word : String) : Word := ofChars word.toList

end Word

/-- Which inputs a program is tried on. -/
inductive CaseSet where
  | easy
  | full
  deriving DecidableEq, Repr

/-- How much is reported of a generation. -/
inductive Detail where
  | brief
  | full
  | verbose
  deriving DecidableEq, Repr

/-- The settings of a command line. -/
structure Options where
  populationSize : Int := 200
  generations : Int := 100
  maxProgramSize : Int := 50
  tournamentSize : Int := 20
  /-- The items of the palette; nothing stands for the built-in palette. -/
  instructions : String := ""
  cases : CaseSet := .full
  fuel : Int := defaultFuel
  penalty : Int := defaultPenalty
  seed : Int := 0
  workers : Int := 1
  /-- The kind of the workers, `thread` or `process`. -/
  executor : String := "process"
  report : Detail := .full
  logLevel : String := "WARNING"
  /-- The options that were last given without a value, and keep an older one. -/
  missing : List Flag := []
  deriving DecidableEq, Repr

/-- Why a command line gives no settings. -/
inductive Stop where
  /-- It asks for help. -/
  | help
  /-- It does not follow the rules. -/
  | misuse
  deriving DecidableEq, Repr

namespace Options

/-- Changes a setting by an integer. -/
def setInt (value : String) (change : Int → Options) : Except Stop Options :=
  match Text.integer? value.toList with
  | some n => .ok (change n)
  | none => .error .misuse

/-- Changes the setting of an option by its value. -/
def set (o : Options) (f : Flag) (value : String) : Except Stop Options :=
  match f with
  | .help => .error .misuse
  | .populationSize => setInt value fun n => { o with populationSize := n }
  | .generations => setInt value fun n => { o with generations := n }
  | .maxProgramSize => setInt value fun n => { o with maxProgramSize := n }
  | .tournamentSize => setInt value fun n => { o with tournamentSize := n }
  | .instructions => .ok { o with instructions := value }
  | .cases =>
    match value with
    | "easy" => .ok { o with cases := .easy }
    | "full" => .ok { o with cases := .full }
    | _ => .error .misuse
  | .fuel => setInt value fun n => { o with fuel := n }
  | .penalty => setInt value fun n => { o with penalty := n }
  | .seed => setInt value fun n => { o with seed := n }
  | .workers => setInt value fun n => { o with workers := n }
  | .executor =>
    if value ∈ ["thread", "process"] then .ok { o with executor := value } else .error .misuse
  | .report =>
    match value with
    | "brief" => .ok { o with report := .brief }
    | "full" => .ok { o with report := .full }
    | "verbose" => .ok { o with report := .verbose }
    | _ => .error .misuse
  | .logLevel => .ok { o with logLevel := value }

/-- Changes the setting of an option that is given without a value. No instructions stand for the
built-in palette, no choice of cases or report for the full one, and no executor is one of the name
`[]`, which none has; the value of any other option is missing from then on. -/
def leaveOut (o : Options) (f : Flag) : Except Stop Options :=
  match f with
  | .help => .error .misuse
  | .instructions => .ok { o with instructions := "" }
  | .cases => .ok { o with cases := .full }
  | .executor => .ok { o with executor := "[]" }
  | .report => .ok { o with report := .full }
  | f => .ok { o with missing := f :: o.missing }

/-- Changes the setting of an option by the text that is given for it. -/
def assign (o : Options) (f : Flag) (text : String) : Except Stop Options :=
  if text = "--" then o.leaveOut f
  else (o.set f text).map fun o => { o with missing := o.missing.filter (· ≠ f) }

/-- The settings after all words. Words that are left over count as misuse, but only at the end, so
that a request for help before or after them is heard; `surplus` says whether there are any. -/
def take (o : Options) (surplus : Bool) : List Word → Except Stop Options
  | [] => if surplus then .error .misuse else .ok o
  | .flag .help none :: _ => .error .help
  | .flag f (some value) :: rest =>
    match o.assign f value with
    | .ok o => take o surplus rest
    | .error stop => .error stop
  | .flag f none :: .value value :: rest =>
    match o.assign f value with
    | .ok o => take o surplus rest
    | .error stop => .error stop
  | .flag _ none :: _ => .error .misuse
  | .separator :: _ => .error .misuse
  | .value _ :: rest | .unknown :: rest | .ambiguous :: rest => take o true rest

/-- The settings that words stand for. A shortened name that fits several options is misuse wherever
it stands before the end of the options. -/
def ofWords (words : List Word) : Except Stop Options :=
  if (words.takeWhile (· ≠ .separator)).contains .ambiguous then .error .misuse
  else take {} false words

/-- The settings of a command line. -/
def parse (args : List String) : Except Stop Options := ofWords (args.map Word.ofText)

end Options

end StackBreeder.CommandLine
