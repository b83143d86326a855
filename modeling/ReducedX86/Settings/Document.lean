import ReducedX86.Ron.Document
import ReducedX86.Settings

/-!
Settings as documents.

A document of settings is one record; a field that is left out has its default, and fields of
other names are passed over. Settings are written with all five fields, a line each.
-/
namespace ReducedX86

inductive SettingsDocumentError
  | malformed
  | refused (error : SettingsError)
  deriving DecidableEq, Repr, Inhabited

namespace Settings

/-- How deep the fields nest that are passed over. -/
def fieldDepth : Nat := Ron.maxDepth - 2

/-- What a field of a document sets, by its name. -/
def field? : String → Option (Ron.Reader (Settings → Settings))
  | "memory_size" => some ((fun n s => { s with memorySize := n }) <$> Ron.unsigned 32)
  | "time_slice_ms" => some ((fun n s => { s with timeSlice := n }) <$> Ron.unsigned 64)
  | "steps_per_check" => 
      some ((fun n s => { s with stepsPerCheck := UInt32.ofNat n }) <$> Ron.unsigned 32)
  | "resume_delay_ms" => some ((fun n s => { s with resumeDelay := n }) <$> Ron.unsigned 64)
  | "timer_interval_ms" =>
      some ((fun n s => { s with timerInterval := UInt32.ofNat n }) <$> Ron.unsigned 32)
  | _ => none

def reader (e : Ron.Extensions) : Ron.Reader Settings :=
  Ron.record e "EmulatorConfig" fieldDepth field? [] {}

/-- The settings of a document, which must also be acceptable. -/
def ofDocument (text : String) : Except SettingsDocumentError Settings :=
  match Ron.document? reader text with
  | none => .error .malformed
  | some s =>
      match s.validate with
      | .ok () => .ok s
      | .error e => .error (.refused e)

def fieldLine (name : String) (value : Nat) : String :=
  "    " ++ name ++ ": " ++ toString value ++ ",\n"

def document (s : Settings) : String :=
  "(\n" ++ fieldLine "memory_size" s.memorySize ++ fieldLine "time_slice_ms" s.timeSlice ++
    fieldLine "steps_per_check" s.stepsPerCheck.toNat ++ fieldLine "resume_delay_ms" s.resumeDelay ++
    fieldLine "timer_interval_ms" s.timerInterval.toNat ++ ")"

end Settings

end ReducedX86
