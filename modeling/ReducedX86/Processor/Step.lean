import ReducedX86.Execution.Instruction

/-!
Stepping a processor.

A step first delivers the lowest requested interrupt, if interrupts are enabled, and then runs
one instruction. A repeat mark and the instruction after it run as one: each step runs the body
once and stays on the mark until the count is used up. A fault is recorded, and the next
instruction is again the one that faulted.
-/
namespace ReducedX86.Processor

variable {δ : Type} [PortDevice δ]

/-- Makes `eip` show the instruction that runs next. -/
def syncEip (p : Processor δ) : Processor δ := p.setReg .eip p.nextInstruction

/-- What comes of entering the handler of the next requested interrupt. -/
inductive Delivery (δ : Type)
  /-- there was no request, or interrupts are disabled -/
  | none (p : Processor δ)
  | entered (p : Processor δ)
  | faulted (p : Processor δ)

/-- Takes the next requested interrupt, if there is one and interrupts are enabled, and enters
its handler with interrupts disabled. -/
def deliver (p : Processor δ) : Delivery δ :=
  if !p.flags.interrupt then .none p
  else match p.interruptQueue with
    | [] => .none p
    | number :: rest =>
        let taken := { p with interruptQueue := rest }
        match (Execution.enterHandler (UInt32.ofNat number.toNat)).run taken with
        | .error f p' => .faulted (p'.recordFault f)
        | .ok () p' => .entered { p' with flags := { p'.flags with interrupt := false } }.syncEip

/-- Runs the instruction after a repeat mark. -/
def executeBody : Execution δ Unit := do
  let p ← get
  match p.instructionAt? p.nextInstruction with
  | some body => body.execute
  | none => throw (.invalidInstructionAddress p.nextInstruction)

/-- Runs an instruction that stands at `address`, with the next instruction after it. -/
def executeAt (address : Word) (i : Instruction) : Execution δ Unit :=
  if i.op = .rep then fun p =>
    match (Execution.countRepetition (δ := δ)).run p with
    | .ok true p' =>
        match executeBody.run p' with
        | .ok () p'' => .ok () { p'' with nextInstruction := address }
        | .error f p'' => .error f { p'' with nextInstruction := address }
    | .ok false p' => .ok () { p' with nextInstruction := p'.nextInstruction + 4 }
    | .error f p' => .error f p'
  else i.execute

/-- Runs the next instruction. False tells that there is none at its address. -/
def stepInstruction (p : Processor δ) : Bool × Processor δ :=
  let address := p.nextInstruction
  match p.instructionAt? address with
  | none => (false, p.recordFault (.invalidInstructionAddress address))
  | some i =>
      match (executeAt address i).run { p with nextInstruction := address + 4 } with
      | .ok () p' => (true, p'.syncEip)
      | .error f p' => (true, { p'.recordFault f with nextInstruction := address }.syncEip)

/-- One step. When `stepping`, the delivery of an interrupt is a step of its own. False tells
that nothing could run. -/
def step (stepping : Bool) (p : Processor δ) : Bool × Processor δ :=
  match deliver p.syncEip with
  | .faulted p' => (false, p')
  | .entered p' => if stepping then (true, p') else stepInstruction p'
  | .none p' => stepInstruction p'

/-- Whether a run goes on from here. -/
def canContinue (p : Processor δ) : Bool :=
  !p.halted && p.fault.isNone && p.pendingTransfer.isNone

/-- Steps until the processor cannot continue, at most `limit` times; counts from `steps`. -/
def runFrom (steps : Nat) : Nat → Processor δ → Nat × Processor δ
  | 0, p => (steps, p)
  | limit + 1, p =>
      if p.canContinue then runFrom (steps + 1) limit (step false p).2 else (steps, p)

/-- Forgets the last fault and runs for at most `limit` steps; returns how many were taken. -/
def run (limit : Nat) (p : Processor δ) : Nat × Processor δ :=
  runFrom 0 limit { p with fault := none }

/-- Completes a pending transfer with the exchange buffer, as if the device had done it at once.
False tells that none was pending. -/
def resumeTransfer (p : Processor δ) : Except Fault Bool × Processor δ :=
  match p.pendingTransfer with
  | none => (.ok false, p)
  | some pending =>
      let p := { p with pendingTransfer := none }
      match pending with
      | .input target _ => (.ok true, p.setReg target p.buffer)
      | .inputString size =>
          match (Execution.writeMemory (p.reg .edi) p.buffer size).run p with
          | .error f p' => (.error f, p'.recordFault f)
          | .ok () p' => (.ok true, p'.advance .edi size)
      | .output (some pointer) size => (.ok true, p.advance pointer size)
      | .output none _ => (.ok true, p)

end ReducedX86.Processor
