import ReducedX86.Bytes
import ReducedX86.Device

/-!
The device a machine has by default: a wall clock, four one-shot timers and a reset port.

Ports 0 to 3 hold the clock, which is read only; ports 4 to 7 the timer interval in milliseconds;
port `8 + i` tells whether timer `i` is armed. A write that covers a timer's port arms it for one
interval if the byte is not zero and neither is the interval, and disarms it otherwise. A timer
that is due raises interrupt `0x20 + i` and is disarmed. A byte other than zero written to port
255 asks for a reset of the machine.
-/
namespace ReducedX86

structure Board where
  ports : ByteArray
  timers : Vector (Option Time) 4
  resetRequested : Bool
  /-- the interval after a reset -/
  defaultInterval : Word

namespace Board

def clockPort : Nat := 0
def intervalPort : Nat := 4
def timerPort : Nat := 8
def timerCount : Nat := 4
def resetPort : Nat := 255
def firstInterrupt : Nat := 0x20

def word (b : Board) (port : Nat) : Word := UInt32.ofNat (Bytes.load b.ports port 4)

def interval (b : Board) : Word := b.word intervalPort

def isArmed (b : Board) (timer : Nat) : Bool := (b.timers[timer]?.getD none).isSome

def initialPorts (interval : Word) (wall : Nat) : ByteArray :=
  Bytes.store (Bytes.store (Bytes.zeros 16) clockPort 4 wall) intervalPort 4
    interval.toNat

def powerOn (interval : Word) (wall : Nat) : Board where
  ports := initialPorts interval wall
  timers := Vector.replicate 4 none
  resetRequested := false
  defaultInterval := interval

instance : Inhabited Board := ⟨powerOn 100 0⟩

/-- Arms a timer for one interval, or disarms it, as its port byte says. -/
def rearm (b : Board) (now : Time) (timer : Fin 4) : Board :=
  let port := timerPort + timer.val
  let armed := Bytes.byteAt b.ports port != 0 && b.interval != 0
  { b with
    ports := Bytes.setByte b.ports port (if armed then 1 else 0)
    timers := b.timers.set timer (if armed then some (now + milliseconds b.interval.toNat) else none) }

/-- Whether a write of `size` bytes at `start` reaches a port. -/
def covers (start : Word) (size port : Nat) : Bool :=
  start.toNat ≤ port && port < start.toNat + size

/-- The writable ports after a write; bytes beyond the exchange buffer do not exist. -/
def writePorts (ports : ByteArray) (start : Word) (size : Nat) (buffer : Word) : ByteArray :=
  (List.range (min size 4)).foldl (fun ports i =>
    let port := start.toNat + i
    if intervalPort ≤ port ∧ port < timerPort + timerCount then
      Bytes.setByte ports port (buffer.byte i)
    else ports) ports

def input (b : Board) (wall : Nat) (port : Word) : Word × Board :=
  if port.toNat = clockPort then
    let time := UInt32.ofNat wall
    (time, { b with ports := Bytes.store b.ports clockPort 4 time.toNat })
  else if port.toNat < timerPort + timerCount then (b.word port.toNat, b)
  else (0, b)

def output (b : Board) (now : Time) (port : Word) (size : Nat) (buffer : Word) : Board :=
  let written := { b with ports := writePorts b.ports port size buffer }
  let armed := (List.finRange 4).foldl (fun b timer =>
    if covers port size (timerPort + timer.val) then b.rearm now timer else b) written
  if covers port size resetPort && buffer.byte (resetPort - port.toNat) != 0 then
    { armed with resetRequested := true }
  else armed

def isDue (b : Board) (now : Time) (timer : Fin 4) : Bool :=
  match b.timers[timer] with
  | some deadline => deadline ≤ now
  | none => false

def disarm (b : Board) (timer : Fin 4) : Board :=
  { b with
    ports := Bytes.setByte b.ports (timerPort + timer.val) 0
    timers := b.timers.set timer none }

/-- The interrupts of the timers that are due, by timer number. -/
def poll (b : Board) (now : Time) : List UInt8 × Board :=
  let due := (List.finRange 4).filter (b.isDue now)
  (due.map fun timer => UInt8.ofNat (firstInterrupt + timer.val), due.foldl disarm b)

def nextDeadline (b : Board) : Option Time :=
  b.timers.toList.foldl (fun earliest deadline =>
    match earliest, deadline with
    | some a, some b => some (min a b)
    | a, none => a
    | none, b => b) none

instance : PortDevice Board where
  input b now port _ _ := let (value, b') := b.input now.wall port; (true, value, b')
  output b now port size buffer := (true, b.output now.instant port size buffer)
  poll := poll
  nextDeadline := nextDeadline
  takeResetRequest b := (b.resetRequested, { b with resetRequested := false })
  reset b now := powerOn b.defaultInterval now.wall

end Board

end ReducedX86
