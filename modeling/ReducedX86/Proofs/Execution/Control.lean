import ReducedX86.Processor.Step
import ReducedX86.Proofs.Execution.Views

/-!
What instructions do to the conditions of a run.

Whether a run goes on is decided by a few fields of the processor, its `control`. Instructions
leave them alone, with three exceptions: `hlt` halts, a breakpoint halts and asks for the debugger,
and a port transfer that the device refuses waits for the host. Faults are recorded by the step
around the instruction, so an instruction that halts or waits has not faulted.
-/
namespace ReducedX86

variable {δ : Type}

/-- The fields of a processor by which a run goes on or ends. -/
structure Control where
  program : Array Instruction
  halted : Bool
  debugRequest : Bool
  fault : Option Fault
  faultLog : List Fault
  pendingTransfer : Option PendingTransfer
  interruptQueue : List UInt8

namespace Control

/-- Nothing keeps the next step from being taken. -/
structure Ready (c : Control) : Prop where
  halted : c.halted = false
  debugRequest : c.debugRequest = false
  fault : c.fault = none
  pendingTransfer : c.pendingTransfer = none

/-- At most one thing ended the last step: a halt, a transfer that waits, or a fault. -/
structure Settled (c : Control) : Prop where
  halted_or_pending : c.halted → c.pendingTransfer = none
  halted_of_debugRequest : c.debugRequest → c.halted
  fault_alone : c.fault.isSome → c.halted = false ∧ c.pendingTransfer = none

theorem Settled.fault_eq_none {c : Control} (settled : c.Settled)
    (waits : c.halted ∨ c.pendingTransfer.isSome) : c.fault = none := by
  cases fault : c.fault with
  | none => rfl
  | some f =>
      obtain ⟨halted, pendingTransfer⟩ := settled.fault_alone (by rw [fault]; rfl)
      simp [halted, pendingTransfer] at waits

/-- The faults that have been recorded do not matter. -/
theorem Settled.with_faultLog {c : Control} (settled : c.Settled) (faultLog : List Fault) :
    ({ c with faultLog } : Control).Settled :=
  ⟨settled.halted_or_pending, settled.halted_of_debugRequest, settled.fault_alone⟩

/-- What an instruction without a fault does to the control. -/
inductive Follows (c : Control) : Control → Prop
  | same : Follows c c
  | halt : Follows c { c with halted := true }
  | breakpoint : Follows c { c with halted := true, debugRequest := true }
  | suspend (t : PendingTransfer) : Follows c { c with pendingTransfer := some t }

theorem Ready.settled {c : Control} (ready : c.Ready) : c.Settled where
  halted_or_pending _ := ready.pendingTransfer
  halted_of_debugRequest requested := by
    rw [ready.debugRequest] at requested
    cases requested
  fault_alone _ := ⟨ready.halted, ready.pendingTransfer⟩

theorem Follows.settled {c c' : Control} (follows : c.Follows c') (ready : c.Ready) :
    c'.Settled := by
  obtain ⟨halted, debugRequest, fault, pendingTransfer⟩ := ready
  cases follows with
  | same => exact Ready.settled ⟨halted, debugRequest, fault, pendingTransfer⟩
  | halt | breakpoint | suspend t => constructor <;> simp_all

end Control

namespace Processor

def control (p : Processor δ) : Control where
  program := p.program
  halted := p.halted
  debugRequest := p.debugRequest
  fault := p.fault
  faultLog := p.faultLog
  pendingTransfer := p.pendingTransfer
  interruptQueue := p.interruptQueue

variable (p : Processor δ)

@[simp] theorem control_setReg (r : Register) (value : Word) :
    (p.setReg r value).control = p.control := rfl

@[simp] theorem control_withFlags (flags : Flags) : (p.withFlags flags).control = p.control := rfl

@[simp] theorem control_jumpTo (address : Word) : (p.jumpTo address).control = p.control := rfl

@[simp] theorem control_storeAt (address value : Word) (size : Nat) :
    (p.storeAt address value size).control = p.control := rfl

@[simp] theorem control_advance (r : Register) (size : Nat) :
    (p.advance r size).control = p.control := rfl

end Processor

/-- The control as a view, which instructions keep. -/
def Control.view : View δ Control where
  look := Processor.control
  look_setReg _ _ _ := rfl
  look_withFlags _ _ := rfl
  look_jumpTo _ _ := rfl
  look_storeAt _ _ _ _ := rfl
  look_handlerTable _ _ := rfl
  look_draws _ _ := rfl

namespace Execution

variable {α : Type}

/-- Whether it ends well or in a fault, the execution leaves the control alone. -/
def KeepsControl (x : Execution δ α) : Prop :=
  ∀ p, Outcome x (fun _ q => q.control = p.control) (fun _ q => q.control = p.control) p

theorem Keeps.control {x : Execution δ α} (keeps : Keeps Control.view x) : KeepsControl x := keeps

/-- The control after an end without a fault follows the control before; a fault keeps it. -/
def StepsControl (x : Execution δ α) : Prop :=
  ∀ p, Outcome x (fun _ q => p.control.Follows q.control) (fun _ q => q.control = p.control) p

theorem Keeps.steps {x : Execution δ α} (keeps : Keeps Control.view x) : StepsControl x := by
  intro p
  apply (keeps.control p).mono
  · intro a q same
    rw [same]
    exact .same
  · intro f q same
    exact same

theorem stepsControl_control (op : ControlOp) (operands : Operands) :
    StepsControl (δ := δ) (control op operands) := by
  cases op with
  | int =>
      obtain ⟨number | number, b⟩ := operands
      · exact (keeps_pure Control.view ()).steps
      · intro p
        simp only [control, interrupt, outcome_bind, outcome_read, outcome_ite, outcome_modify]
        refine ⟨fun _ _ => trivial, fun _ => ⟨fun _ => .breakpoint, fun _ => ?_⟩⟩
        exact (keeps_enterHandler Control.view _).steps p
  | hlt =>
      intro p
      exact .halt
  | call | ret | iret | jmp =>
      apply Keeps.steps
      intro p
      obtain ⟨a | a, b⟩ := operands <;> simp [control, call, push, ret, interruptReturn]

section Ports

variable [PortDevice δ]

theorem stepsControl_inputTo (target : Register) (source : Operand) :
    StepsControl (δ := δ) (inputTo target source) := by
  intro p
  simp only [inputTo, requestInput, suspend, outcome_bind, outcome_read, outcome_modifyGet,
    outcome_ite, outcome_get, outcome_discard, outcome_setReg, outcome_modify]
  refine ⟨fun _ _ => trivial, fun _ => ⟨fun _ => ?_, fun _ => ?_⟩⟩
  · exact .same
  · exact .suspend (.input target target.size)

theorem stepsControl_outputFrom (target src : Operand) :
    StepsControl (δ := δ) (outputFrom target src) := by
  intro p
  simp only [outputFrom, requestOutput, suspend, outcome_bind, outcome_read, outcome_modifyGet,
    outcome_ite, outcome_pure, outcome_modify]
  refine ⟨fun _ _ => trivial, fun _ => ⟨fun _ _ => trivial, fun _ => ⟨fun _ => ?_, fun _ => ?_⟩⟩⟩
  · exact .same
  · exact .suspend (.output none src.size)

theorem stepsControl_inputString (size : Nat) : StepsControl (δ := δ) (inputString size) := by
  intro p
  simp only [inputString, requestInput, suspend, outcome_bind, outcome_reg, outcome_modifyGet,
    outcome_ite, outcome_get, outcome_writeMemory, outcome_advance, outcome_modify]
  refine ⟨fun _ => ⟨fun _ _ => ?_, fun _ => ?_⟩, fun _ => ?_⟩
  · rfl
  · rw [Processor.control_advance]
    exact .same
  · exact .suspend (.inputString size)

theorem stepsControl_outputString (size : Nat) : StepsControl (δ := δ) (outputString size) := by
  intro p
  simp only [outputString, requestOutput, suspend, outcome_bind, outcome_reg, outcome_readMemory,
    outcome_modifyGet, outcome_ite, outcome_advance, outcome_modify]
  refine ⟨fun _ _ => trivial, fun _ => ⟨fun _ => ?_, fun _ => ?_⟩⟩
  · rw [Processor.control_advance]
    exact .same
  · exact .suspend (.output (some .esi) size)

theorem stepsControl_port (op : PortOp) (operands : Operands) :
    StepsControl (δ := δ) (port op operands) := by
  unfold port
  split
  · exact stepsControl_inputTo _ _
  · exact stepsControl_outputFrom _ _
  · exact stepsControl_inputString _
  · exact stepsControl_outputString _
  · exact (keeps_pure Control.view ()).steps

end Ports

end Execution

/-- An instruction leaves the control alone, or halts, or waits for a transfer. -/
theorem Instruction.stepsControl_execute [PortDevice δ] (i : Instruction) :
    Execution.StepsControl (i.execute (δ := δ)) := by
  obtain ⟨op, op1, op2, position⟩ := i
  cases op with
  | arithmetic op => exact (Execution.keeps_arithmetic Control.view op _).steps
  | logic op => exact (Execution.keeps_logic Control.view op _).steps
  | shift op => exact (Execution.keeps_shift Control.view op _).steps
  | bits op => exact (Execution.keeps_bits Control.view op _).steps
  | transfer op => exact (Execution.keeps_transfer Control.view op _).steps
  | stack op => exact (Execution.keeps_stack Control.view op _).steps
  | control op => exact Execution.stepsControl_control op _
  | loop op => exact (Execution.keeps_loop Control.view op _).steps
  | jump c => exact (Execution.keeps_conditionalJump Control.view c _).steps
  | move c => exact (Execution.keeps_conditionalMove Control.view c _).steps
  | set c => exact (Execution.keeps_conditionalSet Control.view c _).steps
  | string op w => exact (Execution.keeps_string Control.view op w).steps
  | port op => exact Execution.stepsControl_port op _
  | wide op => exact (Execution.keeps_wide Control.view op _).steps
  | system op => exact (Execution.keeps_system Control.view op _).steps
  | rep => exact (Execution.keeps_countRepetition Control.view).discard.steps

namespace Processor

theorem control_recordFault (p : Processor δ) (f : Fault) :
    (p.recordFault f).control =
      { p.control with fault := some f, faultLog := f :: p.control.faultLog } := rfl

/-- A fault that is recorded stands alone, if nothing was there before. -/
theorem recordFault_settled {p : Processor δ} (ready : p.control.Ready) (f : Fault) :
    (p.recordFault f).control.Settled where
  halted_or_pending _ := ready.pendingTransfer
  halted_of_debugRequest requested := ready.settled.halted_of_debugRequest requested
  fault_alone _ := ⟨ready.halted, ready.pendingTransfer⟩

@[simp] theorem control_syncEip (p : Processor δ) : p.syncEip.control = p.control :=
  control_setReg p .eip p.nextInstruction

/-- Completing a transfer leaves nothing pending, though it may end in a fault. -/
theorem control_resumeTransfer (p : Processor δ) :
    ∃ fault faultLog, p.resumeTransfer.2.control =
      { p.control with pendingTransfer := none, fault, faultLog } := by
  rw [resumeTransfer]
  cases pending : p.pendingTransfer with
  | none =>
      refine ⟨p.fault, p.faultLog, ?_⟩
      simp [control, pending]
  | some t =>
      cases t with
      | input target size => exact ⟨p.fault, p.faultLog, rfl⟩
      | inputString size =>
          have written := (Execution.keeps_writeMemory Control.view (p.reg .edi) p.buffer size).control
            { p with pendingTransfer := none }
          simp only
          split
          · rename_i f q ran
            have same := written.of_error ran
            refine ⟨some f, f :: p.faultLog, ?_⟩
            rw [control_recordFault, same]
            rfl
          · rename_i q ran
            have same := written.of_ok ran
            refine ⟨p.fault, p.faultLog, ?_⟩
            rw [control_advance, same]
            rfl
      | output pointer size =>
          cases pointer with
          | none => exact ⟨p.fault, p.faultLog, rfl⟩
          | some pointer =>
              refine ⟨p.fault, p.faultLog, ?_⟩
              exact control_advance _ _ _

/-- Nothing can end a step of a processor that is ready before its instruction runs, save a fault
in entering the handler of a request. -/
theorem deliver_ready (p : Processor δ) (ready : p.control.Ready) :
    match deliver p with
    | .none q | .entered q => q.control.Ready
    | .faulted q => q.control.Settled := by
  have entered (number : Word) (rest : List UInt8) :=
    (Execution.keeps_enterHandler Control.view number).control { p with interruptQueue := rest }
  have taken (rest : List UInt8) :
      ({ p with interruptQueue := rest } : Processor δ).control.Ready :=
    ⟨ready.halted, ready.debugRequest, ready.fault, ready.pendingTransfer⟩
  cases enabled : p.flags.interrupt with
  | false =>
      rw [deliver, enabled]
      exact ready
  | true =>
      rw [deliver, enabled]
      cases queued : p.interruptQueue with
      | nil => exact ready
      | cons number rest =>
          simp only
          cases ran : (Execution.enterHandler (UInt32.ofNat number.toNat)).run
              { p with interruptQueue := rest } with
          | ok _ q =>
              have same := (entered _ rest).of_ok ran
              change (q.withFlags _).syncEip.control.Ready
              rw [control_syncEip, control_withFlags, same]
              exact taken rest
          | error f q =>
              have same := (entered _ rest).of_error ran
              apply recordFault_settled
              rw [same]
              exact taken rest

variable [PortDevice δ]

theorem stepsControl_executeBody : Execution.StepsControl (executeBody (δ := δ)) := by
  intro p
  simp only [executeBody, outcome_bind, outcome_get]
  split
  · rename_i body found
    exact body.stepsControl_execute p
  · rfl

/-- A repeat mark counts, and while there is a count it runs the body and stays where it is. -/
theorem outcome_executeAt_rep {done : Unit → Processor δ → Prop}
    {failed : Fault → Processor δ → Prop} {address : Word} {i : Instruction} (mark : i.op = .rep)
    (p : Processor δ) :
    Outcome (executeAt address i) done failed p ↔
      Outcome Execution.countRepetition
        (fun more q =>
          if more then
            Outcome executeBody (fun _ r => done () (r.jumpTo address))
              (fun f r => failed f (r.jumpTo address)) q
          else done () (q.jumpTo (q.nextInstruction + 4)))
        failed p := by
  have chosen : executeAt (δ := δ) address i = _ := if_pos mark
  simp only [chosen, Outcome, EStateM.run]
  cases Execution.countRepetition p with
  | error f q => rfl
  | ok more q =>
      cases more with
      | false => rfl
      | true =>
          simp only [if_true]
          cases executeBody q <;> rfl

/-- A repeated instruction does to the control what its body does. -/
theorem stepsControl_executeAt (address : Word) (i : Instruction) :
    Execution.StepsControl (executeAt (δ := δ) address i) := by
  intro p
  by_cases mark : i.op = .rep
  · rw [outcome_executeAt_rep mark]
    apply ((Execution.keeps_countRepetition Control.view).control p).mono
    · intro more q counted
      split
      · apply (stepsControl_executeBody q).mono
        · intro _ r follows
          rw [control_jumpTo, ← counted]
          exact follows
        · intro f r same
          rw [control_jumpTo, ← counted]
          exact same
      · rw [control_jumpTo, counted]
        exact .same
    · intro f q same
      exact same
  · have chosen : executeAt (δ := δ) address i = i.execute := if_neg mark
    rw [chosen]
    exact i.stepsControl_execute p

theorem stepInstruction_settled (p : Processor δ) (ready : p.control.Ready) :
    (stepInstruction p).2.control.Settled := by
  have ran (i : Instruction) := stepsControl_executeAt p.nextInstruction i
    (p.jumpTo (p.nextInstruction + 4))
  simp only [control_jumpTo] at ran
  rw [stepInstruction]
  simp only
  split
  · exact recordFault_settled ready _
  · rename_i i found
    split
    · rename_i q finished
      rw [control_syncEip]
      exact ((ran i).of_ok finished).settled ready
    · rename_i f q faulted
      have same : q.control = p.control := (ran i).of_error faulted
      have readied : q.control.Ready := by rw [same]; exact ready
      rw [control_syncEip]
      exact recordFault_settled readied f

/-- From a processor that can go on, a step leads to one where at most one thing ended it. -/
theorem step_settled (stepping : Bool) (p : Processor δ) (ready : p.control.Ready) :
    (step stepping p).2.control.Settled := by
  have delivered := deliver_ready p.syncEip (by rw [control_syncEip]; exact ready)
  rw [step]
  cases outcome : deliver p.syncEip with
  | none q =>
      rw [outcome] at delivered
      exact stepInstruction_settled q delivered
  | entered q =>
      rw [outcome] at delivered
      cases stepping with
      | true => exact delivered.settled
      | false => exact stepInstruction_settled q delivered
  | faulted q =>
      rw [outcome] at delivered
      exact delivered

end Processor

end ReducedX86
