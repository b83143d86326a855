import ReducedX86.Processor

/-!
Port transfers.

A transfer goes through the exchange buffer. When the device refuses, the instruction ends with
the transfer pending; whoever completes it fills the buffer and calls `Processor.resumeTransfer`.
-/
namespace ReducedX86.Execution

variable {δ : Type} [PortDevice δ]

/-- Asks the device for `size` bytes; they are in the exchange buffer if it had them. -/
def requestInput (port : Word) (size : Nat) : Execution δ Bool :=
  modifyGet fun p =>
    let (done, buffer, device) := PortDevice.input p.device p.now port size p.buffer
    (done, { p with buffer, device })

/-- Offers the device a value by way of the exchange buffer. -/
def requestOutput (port value : Word) (size : Nat) : Execution δ Bool :=
  modifyGet fun p =>
    let (done, device) := PortDevice.output p.device p.now port size value
    (done, { p with buffer := value, device })

def suspend (t : PendingTransfer) : Execution δ Unit :=
  modify fun p => { p with pendingTransfer := some t }

def inputTo (target : Register) (port : Operand) : Execution δ Unit := do
  if ← requestInput (← read port) target.size then
    discard <| setReg target (← get).buffer
  else suspend (.input target target.size)

def outputFrom (port src : Operand) : Execution δ Unit := do
  let number ← read port
  let value ← read src
  if ← requestOutput number value src.size then pure ()
  else suspend (.output none src.size)

def inputString (size : Nat) : Execution δ Unit := do
  if ← requestInput (← reg .dx) size then
    writeMemory (← reg .edi) (← get).buffer size
    advance .edi size
  else suspend (.inputString size)

def outputString (size : Nat) : Execution δ Unit := do
  let value ← readMemory (← reg .esi) size
  if ← requestOutput (← reg .dx) value size then advance .esi size
  else suspend (.output (some .esi) size)

def port (op : PortOp) : Operands → Execution δ Unit := fun operands =>
  match op, operands with
  | .input, (some (.register target), some port) => inputTo target port
  | .output, (some port, some src) => outputFrom port src
  | .ins w, _ => inputString w.bytes
  | .outs w, _ => outputString w.bytes
  | _, _ => pure ()

end ReducedX86.Execution
