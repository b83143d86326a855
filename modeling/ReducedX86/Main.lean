import ReducedX86.CommandLine

/-!
The program: reads the files that the arguments name, and prints what comes of them.
-/
namespace ReducedX86.CommandLine

def fileErrorOf : IO.Error → FileError
  | .noFileOrDirectory .. => .notFound
  | .inappropriateType .. => .isDirectory
  | e => .other (toString e)

def readFromDisk (path : String) : IO (Except FileError String) := do
  try
    let bytes ← IO.FS.readBinFile path
    match String.fromUTF8? bytes with
    | some text => return .ok text
    | none => return .error (.other "stream did not contain valid UTF-8")
  catch e => return .error (fileErrorOf e)

def Request.paths : Request → List String
  | .execute a => a.source :: a.declarations.toList ++ a.settings.toList
  | .help | .version => []

/-- Random numbers from a generator that starts with `seed`. -/
def drawsFrom (seed : Nat) : Feed Word where
  value n := UInt32.ofNat (stdNext (mkStdGen (seed + n))).1

/-- Reads, runs and prints; the result is the exit status. -/
def runProgram (arguments : List String) : IO UInt32 := do
  let paths := ((Request.ofList? arguments).map Request.paths).getD []
  let files ← paths.mapM fun path => return (path, ← readFromDisk path)
  let read (path : String) := (files.lookup path).getD (.error .notFound)
  let start ← IO.monoNanosNow
  match outcome read (drawsFrom start) start arguments with
  | some result =>
      IO.print result.output
      IO.eprint result.errors
      return UInt32.ofNat result.status
  | none => return 1

end ReducedX86.CommandLine

def main (arguments : List String) : IO UInt32 := ReducedX86.CommandLine.runProgram arguments
