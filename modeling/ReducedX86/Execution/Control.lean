import ReducedX86.Processor

/-!
Jumps, calls, loops and interrupts: what decides which instruction runs next.
-/
namespace ReducedX86.Execution

variable {δ : Type}

/-- Enters the handler of interrupt `number`: the flags and the return address go on the stack,
and execution continues at the address found in the handler table. -/
def enterHandler (number : Word) : Execution δ Unit := do
  let handler ← readMemory ((← get).handlerTable + number * 4) 4
  let top ← reg .esp
  writeMemory (top - 4) (← get).flags.pack 4
  writeMemory (top - 8) (← get).nextInstruction 4
  discard <| setReg .esp (top - 8)
  jump handler

/-- Interrupt 3 is a breakpoint, which halts; any other number enters its handler. -/
def interrupt (number : Word) : Execution δ Unit :=
  if number = 3 then modify fun p => { p with halted := true, debugRequest := true }
  else enterHandler number

def call (target : Operand) : Execution δ Unit := do
  let address ← read target
  push (← get).nextInstruction 4
  jump address

/-- Returns and releases as many more bytes of the stack as the operand says. -/
def ret (count : Option Operand) : Execution δ Unit := do
  let top ← reg .esp
  let address ← readMemory top 4
  let released ← match count with
    | some o => read o
    | none => pure 0
  discard <| setReg .esp (top + released + 4)
  jump address

def interruptReturn : Execution δ Unit := do
  let top ← reg .esp
  let address ← readMemory top 4
  let packed ← readMemory (top + 4) 4
  discard <| setReg .esp (top + 8)
  setFlags fun _ => Flags.unpack packed
  jump address

def control (op : ControlOp) : Operands → Execution δ Unit := fun operands =>
  match op, operands with
  | .call, (some target, _) => call target
  | .jmp, (some target, _) => do jump (← read target)
  | .ret, (count, _) => ret count
  | .int, (some number, _) => do interrupt (← read number)
  | .iret, _ => interruptReturn
  | .hlt, _ => modify fun p => { p with halted := true }
  | _, (none, _) => pure ()

/-- What a counted loop asks of the zero flag. -/
def loopContinues (op : LoopOp) (zero : Bool) : Bool :=
  match op with
  | .loop => true
  | .loope => zero
  | .loopne => !zero

/-- Counts `ecx` down and jumps while it is not zero and the zero flag agrees. -/
def loop (op : LoopOp) : Operands → Execution δ Unit
  | (some target, _) => do
      let count ← setReg .ecx ((← reg .ecx) - 1)
      if count ≠ 0 ∧ loopContinues op (← get).flags.zero then jump (← read target)
  | (none, _) => pure ()

def conditionalJump (c : Condition) : Operands → Execution δ Unit
  | (some target, _) => do if c.holds (← get).flags then jump (← read target)
  | (none, _) => pure ()

/-- Takes one from `ecx`, if there is one to take. -/
def countRepetition : Execution δ Bool := do
  let count ← reg .ecx
  if count = 0 then return false
  discard <| setReg .ecx (count - 1)
  return true

end ReducedX86.Execution
