import ReducedX86.Variable
import ReducedX86.Assembly.Error

/-!
What a machine tells its observers.

Observers are known by numbers that are given out once. A notification goes to every attached
observer in the order of attachment; what was delivered is kept in a log.
-/
namespace ReducedX86

structure RunStatus where
  reset : Bool := false
  stopCalled : Bool := false
  halted : Bool := false
  pendingTransfer : Bool := false
  faulted : Bool := false
  deriving DecidableEq, Repr, Inhabited

inductive Notification
  | assemblyFinished (failed : Bool)
  | assemblyFailed (error : AssemblyError)
  | reset
  | runtimeFault (fault : Fault)
  | startedRunning
  | stepFinished (status : RunStatus)
  | stoppedRunning (status : RunStatus)
  | variableAdded (v : Variable)
  | variableRemoved (v : Variable)
  | variableRefused (error : VariableError)
  deriving DecidableEq, Repr, Inhabited

structure Observers where
  /-- the number the next observer gets -/
  next : Nat := 0
  /-- the attached observers in the order of attachment -/
  attached : List Nat := []
  /-- what was delivered to whom, the latest first -/
  log : List (Nat × Notification) := []
  deriving DecidableEq, Repr, Inhabited

namespace Observers

def attach (o : Observers) : Nat × Observers :=
  (o.next, { o with next := o.next + 1, attached := o.attached ++ [o.next] })

/-- Detaches an observer; false tells that it was not attached. -/
def detach (o : Observers) (number : Nat) : Bool × Observers :=
  (o.attached.contains number, { o with attached := o.attached.filter (· ≠ number) })

def notify (o : Observers) (n : Notification) : Observers :=
  { o with log := (o.attached.map fun number => (number, n)).reverse ++ o.log }

/-- What was delivered since the last call, in order. -/
def takeLog (o : Observers) : List (Nat × Notification) × Observers :=
  (o.log.reverse, { o with log := [] })

end Observers

end ReducedX86
