import ReducedX86.Processor

/-!
The stack, and blocks of registers in memory.

`pushad` and `xsave` write an end of their block before the rest of it, so that a block which
begins outside of the memory is refused before anything is written. `popad` and `xrstor` read the
whole block before they change a register.
-/
namespace ReducedX86.Execution

variable {δ : Type}

/-- The registers of a `pushad` block from the lowest address up. -/
def stackBlock : List Register := [.edi, .esi, .ebp, .esp, .ebx, .edx, .ecx, .eax]

/-- The registers of an `xsave` block from the lowest address up; the flags follow them. -/
def stateBlock : List Register := [.eax, .ebx, .ecx, .edx, .esi, .edi, .ebp, .esp]

def writeRegisters (address : Word) : List Register → Execution δ Unit
  | [] => pure ()
  | r :: rest => do
      writeMemory address (← reg r) 4
      writeRegisters (address + 4) rest

def readWords (address : Word) : Nat → Execution δ (List Word)
  | 0 => pure []
  | count + 1 => do
      let value ← readMemory address 4
      let rest ← readWords (address + 4) count
      return value :: rest

def setRegisters : List (Register × Word) → Execution δ Unit
  | [] => pure ()
  | (r, value) :: rest => do
      discard <| setReg r value
      setRegisters rest

def pushAll : Execution δ Unit := do
  let bottom := (← reg .esp) - 32
  writeRegisters bottom stackBlock
  discard <| setReg .esp bottom

/-- Restores all registers of the block but `esp`, which moves past the block. -/
def popAll : Execution δ Unit := do
  let top ← reg .esp
  let values ← readWords top 8
  setRegisters ((stackBlock.zip values).filter (·.1 ≠ .esp))
  discard <| setReg .esp (top + 32)

/-- Stores the top of the stack in the destination; `esp` moves last. -/
def popTo (dst : Operand) : Execution δ Unit := do
  let top ← reg .esp
  let value ← readMemory top dst.size
  discard <| write dst value
  discard <| setReg .esp (top + UInt32.ofNat dst.size)

def stack (op : StackOp) : Operands → Execution δ Unit := fun operands =>
  match op, operands with
  | .push, (some src, _) => do push (← read src) src.size
  | .pop, (some dst, _) => popTo dst
  | .pushfd, _ => do push (← get).flags.pack 4
  | .popfd, _ => do
      let packed ← pop 4
      setFlags fun _ => Flags.unpack packed
  | .pushad, _ => pushAll
  | .popad, _ => popAll
  | _, _ => pure ()

def saveState (m : MemoryOperand) : Execution δ Unit := do
  let base := (← get).addressOf m
  writeMemory base (← reg .eax) 4
  writeMemory (base + 32) (← get).flags.pack 4
  writeRegisters (base + 4) stateBlock.tail

def restoreState (m : MemoryOperand) : Execution δ Unit := do
  let base := (← get).addressOf m
  let values ← readWords base 8
  let packed ← readMemory (base + 32) 4
  setRegisters (stateBlock.zip values)
  setFlags fun _ => Flags.unpack packed

end ReducedX86.Execution
