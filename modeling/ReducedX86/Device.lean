import ReducedX86.Word

/-!
Port devices.

A device is a state with answers to transfers. Time is not asked for: it is told with every call
that depends on it. A device may refuse a transfer for now; the processor then waits until its
host completes the transfer in the device's place.
-/
namespace ReducedX86

/-- A moment or a duration in nanoseconds. -/
abbrev Time := Nat

def milliseconds (n : Nat) : Time := n * 1000000

/-- What the clocks of a host show at one moment. -/
structure Reading where
  /-- the time that deadlines and durations are told by -/
  instant : Time := 0
  /-- the wall clock, in milliseconds -/
  wall : Nat := 0
  deriving DecidableEq, Repr, Inhabited

class PortDevice (δ : Type) where
  /-- Reads `size` bytes from a port: whether that was possible, and the exchange buffer after. -/
  input : δ → (now : Reading) → (port : Word) → (size : Nat) → (buffer : Word) → Bool × Word × δ
  /-- Writes the low `size` bytes of the exchange buffer to a port, if that is possible. -/
  output : δ → (now : Reading) → (port : Word) → (size : Nat) → (buffer : Word) → Bool × δ
  /-- The interrupts that became due. -/
  poll : δ → (now : Time) → List UInt8 × δ := fun device _ => ([], device)
  /-- The earliest moment at which `poll` can have something to report. -/
  nextDeadline : δ → Option Time := fun _ => none
  /-- Whether a machine reset was asked for since the last call. -/
  takeResetRequest : δ → Bool × δ := fun device => (false, device)
  /-- The device as it is after power-on. -/
  reset : δ → (now : Reading) → δ := fun device _ => device

end ReducedX86
