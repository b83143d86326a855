/-!
Arguments of the command line.

One argument names the source file; options may stand before and after it. An option that takes a
value has it as the next argument or after an equals sign. `--` ends the options. No option may
be given twice, and the first argument that is wrong decides, unless help or the version was
asked for before it.
-/
namespace ReducedX86.CommandLine

structure Arguments where
  source : String
  declarations : Option String := none
  settings : Option String := none
  memorySize : Option Nat := none
  singleStep : Bool := false
  maxSteps : Nat := 10000
  /-- how long a run may take, in milliseconds -/
  timeout : Nat := 10000
  deriving DecidableEq, Repr, Inhabited

inductive Request
  | execute (arguments : Arguments)
  | help
  | version
  deriving DecidableEq, Repr, Inhabited

inductive ValueOption
  | declarations | settings | memorySize | maxSteps | timeout
  deriving DecidableEq, Repr, Inhabited

inductive Flag
  | value (option : ValueOption)
  | step
  | help
  | version
  deriving DecidableEq, Repr, Inhabited

def flags : List (String × Flag) :=
  [("variables", .value .declarations), ("config", .value .settings),
   ("memory-size", .value .memorySize), ("step", .step), ("max-steps", .value .maxSteps),
   ("timeout-ms", .value .timeout), ("help", .help), ("version", .version)]

/-- What has been given so far. -/
structure Given where
  source : Option String := none
  step : Bool := false
  values : List (ValueOption × String) := []
  deriving DecidableEq, Repr, Inhabited

/-- The number of a text of digits, of which there is at least one. -/
def digits? (cs : List Char) : Option Nat :=
  if cs.isEmpty then none
  else cs.foldlM (fun n c => if c.isDigit then some (n * 10 + (c.toNat - 48)) else none) 0

/-- A count below `limit`, perhaps with a plus sign. -/
def count? (limit : Nat) (text : String) : Option Nat := do
  let n ← digits? (match text.toList with
    | '+' :: rest => rest
    | cs => cs)
  if n < limit then some n else none

/-- A count below `2 ^ 32`; zero may have a minus sign. -/
def size? (text : String) : Option Nat :=
  match text.toList with
  | '-' :: rest => (digits? rest).filter (· == 0)
  | _ => count? UInt32.size text

def ValueOption.admits (o : ValueOption) (text : String) : Bool :=
  match o with
  | declarations | settings => !text.isEmpty
  | memorySize => (size? text).isSome
  | maxSteps | timeout => (count? UInt64.size text).isSome

namespace Given

def addSource (g : Given) (path : String) : Option Given :=
  if g.source.isSome || path.isEmpty then none else some { g with source := some path }

def addValue (g : Given) (o : ValueOption) (text : String) : Option Given :=
  if (g.values.lookup o).isSome || !o.admits text then none
  else some { g with values := (o, text) :: g.values }

def addStep (g : Given) : Option Given := if g.step then none else some { g with step := true }

def addSources (g : Given) (paths : List String) : Option Given := paths.foldlM addSource g

/-- The arguments, if a source was named. -/
def arguments? (g : Given) : Option Arguments := do
  let source ← g.source
  let count (o : ValueOption) : Option Nat := (g.values.lookup o).bind (count? UInt64.size)
  return {
    source
    declarations := g.values.lookup .declarations
    settings := g.values.lookup .settings
    memorySize := (g.values.lookup .memorySize).bind size?
    singleStep := g.step
    maxSteps := (count .maxSteps).getD 10000
    timeout := (count .timeout).getD 10000 }

end Given

/-- Whether an argument can only be an option; a single hyphen is a file name. -/
def isOption (argument : String) : Bool := argument.startsWith "-" && argument ≠ "-"

/-- A long option: its name and what follows an equals sign. -/
def splitLong (argument : String) : String × Option String :=
  let cs := argument.toList.drop 2
  match cs.dropWhile (· ≠ '=') with
  | _ :: value => (String.ofList (cs.takeWhile (· ≠ '=')), some (String.ofList value))
  | [] => (String.ofList cs, none)

/-- What short options ask for; the first letter decides. -/
def short? (argument : String) : Option Request :=
  match argument.toList with
  | _ :: 'h' :: _ => some .help
  | _ :: 'V' :: _ => some .version
  | _ => none

def finish (g : Given) : Option Request := g.arguments?.map .execute

def read (g : Given) : List String → Option Request
  | [] => finish g
  | argument :: rest =>
      if argument == "--" then (g.addSources rest).bind finish
      else if argument.startsWith "--" then
        let (name, attached) := splitLong argument
        match flags.lookup name, attached with
        | some (.value o), some text => (g.addValue o text).bind (read · rest)
        | some (.value o), none =>
            match rest with
            | [] => none
            | text :: rest =>
                if isOption text then none else (g.addValue o text).bind (read · rest)
        | some .step, none => g.addStep.bind (read · rest)
        | some .help, none => some .help
        | some .version, none => some .version
        | _, _ => none
      else if isOption argument then short? argument
      else (g.addSource argument).bind (read · rest)

/-- What a list of arguments asks for, if they are well formed. -/
def Request.ofList? (arguments : List String) : Option Request := read {} arguments

end ReducedX86.CommandLine
