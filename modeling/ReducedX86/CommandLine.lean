import ReducedX86.CommandLine.Arguments
import ReducedX86.CommandLine.Files
import ReducedX86.CommandLine.Host
import ReducedX86.CommandLine.Report
import ReducedX86.Device.Board
import ReducedX86.Settings.Document
import ReducedX86.Variable.Document

/-!
The command line: assembles a file, runs it, and reports the state it ends in.

What stands in the way of a run is found in this order: settings, the memory size given in their
place, variables, source. A fault of the program is no failure of the run, but shows in the exit
status.
-/
namespace ReducedX86.CommandLine

inductive Failure
  | unreadable (path : String) (error : FileError)
  | unreadableSettings (error : FileError)
  | malformedSettings
  | refusedSettings (error : SettingsError)
  | malformedVariables
  | machine (error : MachineError)
  deriving DecidableEq, Repr, Inhabited

def Failure.message : Failure → String
  | unreadable path error => "could not read " ++ path ++ ": " ++ error.message
  | unreadableSettings error => "could not read config: " ++ error.message
  | malformedSettings => "could not parse config: malformed document"
  | refusedSettings error => error.message
  | malformedVariables => "could not parse variables: malformed document"
  | machine error => error.message

abbrev FileReader := String → Except FileError String

/-- The settings of a file, or the usual ones. -/
def fileSettings (read : FileReader) : Option String → Except Failure Settings
  | none => .ok {}
  | some path =>
      match read path with
      | .error e => .error (.unreadableSettings e)
      | .ok text =>
          match Settings.ofDocument text with
          | .ok s => .ok s
          | .error .malformed => .error .malformedSettings
          | .error (.refused e) => .error (.refusedSettings e)

def settingsOf (read : FileReader) (a : Arguments) : Except Failure Settings := do
  let s ← fileSettings read a.settings
  let s := match a.memorySize with
    | some memorySize => { s with memorySize }
    | none => s
  match s.validate with
  | .ok () => return s
  | .error e => throw (.refusedSettings e)

def fileText (read : FileReader) (path : String) : Except Failure String :=
  (read path).mapError (.unreadable path)

def declarationsOf (read : FileReader) (a : Arguments) : Except Failure (List Declaration) :=
  match a.declarations with
  | none => .ok []
  | some path => do
      match Declaration.listOfDocument? (← fileText read path) with
      | some declarations => return declarations
      | none => throw .malformedVariables

/-- What the command line does, which has no result where the program runs on without an end. -/
abbrev Session := ExceptT Failure Option

def Session.of {α : Type} (result : Except Failure α) : Session α := .mk (some result)

/-- Makes a call on a machine, whose error ends the session. -/
def call {α : Type} (m : Machine Board) (f : MachineCall Board α) : Session (Machine Board) :=
  .mk ((f.on m).map fun
    | (.ok _, m') => .ok m'
    | (.error e, _) => .error (.machine e))

/-- The machine with the program and its variables. -/
def prepare (read : FileReader) (draws : Feed Word) (start : Time) (a : Arguments) :
    Session (Machine Board) := do
  let settings ← Session.of (settingsOf read a)
  let device := Board.powerOn settings.timerInterval (Machine.clockFrom start).head.wall
  let m ← Session.of ((Machine.new settings device draws).mapError .refusedSettings)
  let m := m.attended (Machine.clockFrom start) Machine.endurance
  let m ← call m (Machine.addVariables (← Session.of (declarationsOf read a)))
  call m (Machine.assemble (← Session.of (fileText read a.source)))

/-- The machine that a session leaves behind, if the clock is at `start` to begin with. -/
def execute (read : FileReader) (draws : Feed Word) (start : Time) (a : Arguments) :
    Session (Machine Board) := do
  let m ← prepare read draws start a
  if a.singleStep then call m (Machine.stepUpTo a.maxSteps)
  else
    let m ← call m Machine.run
    .mk ((m.tickUntil (start + milliseconds a.timeout) start).map .ok)

structure Outcome where
  status : Nat
  output : String := ""
  errors : String := ""
  deriving DecidableEq, Repr, Inhabited

def version : String := "asm86 0.1.0\n"

def usage : String :=
  "Usage: asm86 [--variables FILE] [--config FILE] [--memory-size SIZE] [--step]\n" ++
  "             [--max-steps COUNT] [--timeout-ms TIME] SOURCE\n"

def Outcome.ofRun : Except Failure (Machine Board) → Outcome
  | .ok m => { status := if m.processor.fault.isSome then 1 else 0, output := m.report }
  | .error e => { status := 1, errors := e.message ++ "\n" }

/-- What becomes of the arguments, if the session comes to an end. -/
def outcome (read : FileReader) (draws : Feed Word) (start : Time) (arguments : List String) :
    Option Outcome :=
  match Request.ofList? arguments with
  | none => some { status := 2, errors := usage }
  | some .help => some { status := 0, output := usage }
  | some .version => some { status := 0, output := version }
  | some (.execute a) => (execute read draws start a).run.map .ofRun

end ReducedX86.CommandLine
