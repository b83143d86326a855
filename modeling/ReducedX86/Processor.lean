import ReducedX86.Assembly.Program
import ReducedX86.Device
import ReducedX86.Feed

/-!
The processor: registers, flags, data memory, a program, and a port device.

Instructions act on a processor by steps that may fault; a fault leaves everything that already
happened in place. This module has the state and the access to operands and the stack, of which
instructions are made.
-/
namespace ReducedX86

/-- A port transfer that the device refused for now, and what is left of it to do. -/
inductive PendingTransfer
  /-- the register receives the exchange buffer -/
  | input (target : Register) (size : Nat)
  /-- the exchange buffer goes to `[edi]`, then `edi` moves -/
  | inputString (size : Nat)
  /-- nothing, but a string pointer may still have to move -/
  | output (pointer : Option Register) (size : Nat)
  deriving DecidableEq, Repr, Inhabited

structure Processor (δ : Type) where
  memory : Memory
  registers : RegisterFile := .zero
  flags : Flags := {}
  /-- the address of the table of interrupt handlers -/
  handlerTable : Word := 0
  /-- the address of the instruction that runs next -/
  nextInstruction : Word := 0
  program : Array Instruction := #[]
  halted : Bool := false
  /-- a breakpoint was met -/
  debugRequest : Bool := false
  /-- the fault of the last step -/
  fault : Option Fault := none
  /-- the faults since the log was last taken, the latest first -/
  faultLog : List Fault := []
  pendingTransfer : Option PendingTransfer := none
  /-- the requested interrupts in the order of their delivery, lowest number first -/
  interruptQueue : List UInt8 := []
  /-- the exchange buffer of port transfers -/
  buffer : Word := 0
  device : δ
  /-- what the host's clocks show -/
  now : Reading := {}
  /-- the random numbers to come -/
  draws : Feed Word

/-- An action on a processor that may fault. -/
abbrev Execution (δ α : Type) := EStateM Fault (Processor δ) α

namespace Processor

variable {δ : Type}

def reg (p : Processor δ) (r : Register) : Word := p.registers.get r

def setReg (p : Processor δ) (r : Register) (value : Word) : Processor δ :=
  { p with registers := p.registers.set r value }

/-- The first instruction address. -/
def limit (p : Processor δ) : Word := p.memory.limit

def instructionAddress (p : Processor δ) (i : Nat) : Word := Assembly.instructionAddress p.limit i

/-- The instruction at an address, which may point into the four bytes it takes. -/
def instructionAt? (p : Processor δ) (address : Word) : Option Instruction :=
  p.program[((address - p.limit) >>> 2).toNat]?

def addressOf (p : Processor δ) (m : MemoryOperand) : Word := m.address p.registers

/-- Moves a string pointer by one element, down when the direction flag is set. -/
def advance (p : Processor δ) (r : Register) (size : Nat) : Processor δ :=
  let step := UInt32.ofNat size
  p.setReg r (if p.flags.direction then p.reg r - step else p.reg r + step)

/-- Goes back to the first instruction and drops every transient condition. -/
def resetExecution (p : Processor δ) : Processor δ :=
  let limit := p.limit
  { p with
    nextInstruction := limit
    registers := p.registers.set .eip limit
    fault := none
    faultLog := []
    pendingTransfer := none
    interruptQueue := []
    halted := false
    debugRequest := false }

def resetMemory (p : Processor δ) : Processor δ :=
  { p with memory := p.memory.clear }

/-- Clears registers, flags and handler table; `eip` stays and `esp` points at the limit. -/
def resetRegisters (p : Processor δ) : Processor δ :=
  let registers := (RegisterFile.zero.set .eip (p.reg .eip)).set .esp p.limit
  { p with registers, flags := {}, handlerTable := 0 }

/-- A processor with `memorySize` bytes of memory and no program. -/
def new (memorySize : Nat) (device : δ) (draws : Feed Word) : Processor δ :=
  resetRegisters (resetExecution { memory := .zero memorySize, device, draws })

/-- Replaces the program and goes back to its first instruction. -/
def load (p : Processor δ) (program : Array Instruction) : Processor δ :=
  resetExecution { p with program }

theorem memory_load (p : Processor δ) (program : Array Instruction) :
    (p.load program).memory = p.memory := by
  rw [load, resetExecution]

/-- Adds a number to a queue that is sorted and holds no number twice. -/
def enqueue (n : UInt8) : List UInt8 → List UInt8
  | [] => [n]
  | m :: rest => if n < m then n :: m :: rest else if n = m then m :: rest else m :: enqueue n rest

/-- Requests an interrupt, if its number is one that a host may request. A request ends a halt. -/
def queueInterrupt (p : Processor δ) (number : Word) : Option (Processor δ) :=
  if 32 ≤ number ∧ number ≤ 255 then
    some { p with
      interruptQueue := enqueue (UInt8.ofNat number.toNat) p.interruptQueue
      halted := false }
  else none

def recordFault (p : Processor δ) (f : Fault) : Processor δ :=
  { p with fault := some f, faultLog := f :: p.faultLog }

/-- The faults since the last call, the oldest first. -/
def takeFaults (p : Processor δ) : List Fault × Processor δ :=
  (p.faultLog.reverse, { p with faultLog := [] })

end Processor

namespace Execution

variable {δ : Type}

def reg (r : Register) : Execution δ Word := do return (← get).reg r

/-- Stores a value in a register and returns what the register then holds. -/
def setReg (r : Register) (value : Word) : Execution δ Word := do
  modify (·.setReg r value)
  return value.truncate r.size

def setFlags (f : Flags → Flags) : Execution δ Unit :=
  modify fun p => { p with flags := f p.flags }

def jump (address : Word) : Execution δ Unit :=
  modify fun p => { p with nextInstruction := address }

def advance (r : Register) (size : Nat) : Execution δ Unit := modify (·.advance r size)

def readMemory (address : Word) (size : Nat) : Execution δ Word := fun p =>
  match p.memory.readFault? address size with
  | some fault => .error fault p
  | none => .ok (p.memory.load address size) p

def writeMemory (address value : Word) (size : Nat) : Execution δ Unit := fun p =>
  match p.memory.writeFault? address size with
  | some fault => .error fault p
  | none => .ok () { p with memory := p.memory.store address value size }

/-- The value of an operand, cut to its width. -/
def read : Operand → Execution δ Word
  | .register r => reg r
  | .memory m => do readMemory ((← get).addressOf m) m.size
  | .immediate value size => return Operand.cut value size
  | .label address => return address

/-- Stores a value through an operand and returns what was stored. Constants are not changed. -/
def write (o : Operand) (value : Word) : Execution δ Word :=
  match o with
  | .register r => setReg r value
  | .memory m => do
      let stored := value.truncate m.size
      writeMemory ((← get).addressOf m) stored m.size
      return stored
  | .immediate _ size => return value.truncate size
  | .label _ => return value

/-- Puts `size` bytes on the stack; `esp` moves when they have been written. -/
def push (value : Word) (size : Nat) : Execution δ Unit := do
  let top := (← reg .esp) - UInt32.ofNat size
  writeMemory top value size
  discard <| setReg .esp top

def pop (size : Nat) : Execution δ Word := do
  let top ← reg .esp
  let value ← readMemory top size
  discard <| setReg .esp (top + UInt32.ofNat size)
  return value

end Execution

end ReducedX86
