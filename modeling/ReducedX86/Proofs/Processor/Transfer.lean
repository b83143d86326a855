import ReducedX86.Proofs.Processor.Step
import ReducedX86.Proofs.Register

/-!
The two ways through a port transfer.

A transfer asks the device and then moves the data and the pointers; when the device refuses, the
second part is left to `Processor.resumeTransfer`. Both ways run the same second part, `complete`.
It has nothing to do with `eip` and the next instruction, so that it does not matter whether it runs
before the end of a step or after.
-/
namespace ReducedX86

-- Two processors are compared field by field; what is in the registers need not be looked into.
attribute [local irreducible] RegisterFile.set

variable {δ ε : Type}

/-- The transfer does not move `eip`. -/
def PendingTransfer.SparesEip : PendingTransfer → Prop
  | .input target _ => target ≠ .eip
  | .inputString _ => True
  | .output pointer _ => pointer ≠ some .eip

namespace Execution

/-- What is left of a transfer once `value` is in the exchange buffer. -/
def complete (value : Word) : PendingTransfer → Execution δ Unit
  | .input target _ => discard <| setReg target value
  | .inputString size => do
      writeMemory (← reg .edi) value size
      advance .edi size
  | .output (some pointer) size => advance pointer size
  | .output none _ => pure ()

/-- The pointers move the same way whatever the buffer holds. -/
theorem complete_output (value other : Word) (pointer : Option Register) (size : Nat) :
    complete (δ := δ) value (.output pointer size) = complete other (.output pointer size) := by
  cases pointer <;> rfl

theorem unaware_complete (value : Word) (t : PendingTransfer) :
    Unaware (δ := δ) (ε := ε) (complete value t) (complete value t) := by
  intro f p done failed
  cases t with
  | input target size | inputString size => simp [complete]
  | output pointer size => cases pointer <;> simp [complete]

section Ports

variable [PortDevice δ]

/-- Asks for input, and completes the transfer or leaves it pending. -/
def receive (port : Word) (size : Nat) (t : PendingTransfer) : Execution δ Unit := do
  if ← requestInput port size then complete (← get).buffer t else suspend t

/-- Offers output, and completes the transfer or leaves it pending. -/
def send (port value : Word) (size : Nat) (pointer : Option Register) : Execution δ Unit := do
  if ← requestOutput port value size then complete value (.output pointer size)
  else suspend (.output pointer size)

theorem inputTo_eq (target : Register) (port : Operand) :
    inputTo (δ := δ) target port =
      read port >>= fun number => receive number target.size (.input target target.size) := rfl

theorem outputFrom_eq (port src : Operand) :
    outputFrom (δ := δ) port src =
      read port >>= fun number => read src >>= fun value =>
        send number value src.size none := rfl

theorem inputString_eq (size : Nat) :
    inputString (δ := δ) size =
      reg .dx >>= fun number => receive number size (.inputString size) := rfl

theorem outputString_eq (size : Nat) :
    outputString (δ := δ) size =
      reg .esi >>= fun start => readMemory start size >>= fun value => reg .dx >>= fun number =>
        send number value size (some .esi) := rfl

variable (p : Processor δ) (port : Word) (size : Nat)

theorem receive_run (t : PendingTransfer) {accepted : Bool} {value : Word} {device : δ}
    (answer : p.inputFrom port size = (accepted, value, device)) :
    (receive port size t).run p =
      (if accepted then complete value t else suspend t).run (p.exchanged value device) := by
  have asked : (requestInput port size).run p = .ok accepted (p.exchanged value device) := by
    change EStateM.Result.ok (p.inputFrom port size).1
      (p.exchanged (p.inputFrom port size).2.1 (p.inputFrom port size).2.2) = _
    rw [answer]
  rw [receive, EStateM.run_bind, asked]
  cases accepted <;> rfl

theorem send_run (value : Word) (pointer : Option Register) {accepted : Bool} {device : δ}
    (answer : p.outputTo port value size = (accepted, device)) :
    (send port value size pointer).run p =
      (if accepted then complete value (.output pointer size)
        else suspend (.output pointer size)).run (p.exchanged value device) := by
  have asked : (requestOutput port value size).run p = .ok accepted (p.exchanged value device) := by
    change EStateM.Result.ok (p.outputTo port value size).1
      (p.exchanged value (p.outputTo port value size).2) = _
    rw [answer]
  rw [send, EStateM.run_bind, asked]

end Ports

end Execution

namespace Processor

/-- The processor with another value in its exchange buffer. -/
def filled (p : Processor δ) (buffer : Word) : Processor δ := { p with buffer }

/-- The processor with nothing pending. -/
def released (p : Processor δ) : Processor δ := { p with pendingTransfer := none }

/-- Completing a pending transfer is what the instruction would have done with the buffer. -/
theorem resumeTransfer_eq {p : Processor δ} {t : PendingTransfer}
    (pending : p.pendingTransfer = some t) :
    p.resumeTransfer =
      match (Execution.complete p.buffer t).run p.released with
      | .ok _ q => (.ok true, q)
      | .error f q => (.error f, q.recordFault f) := by
  rw [resumeTransfer, pending]
  cases t with
  | input target size => rfl
  | inputString size =>
      simp only [Execution.complete, EStateM.run_bind, Execution.reg, EStateM.run_get,
        EStateM.run_pure, Execution.advance, EStateM.run_modify, released]
      cases EStateM.run _ _ <;> rfl
  | output pointer size => cases pointer <;> rfl

theorem resumeTransfer_of_ok {p q : Processor δ} {t : PendingTransfer}
    (pending : p.pendingTransfer = some t)
    (ran : (Execution.complete p.buffer t).run p.released = .ok () q) :
    p.resumeTransfer = (.ok true, q) := by
  rw [resumeTransfer_eq pending, ran]

theorem resumeTransfer_of_error {p q : Processor δ} {t : PendingTransfer} {f : Fault}
    (pending : p.pendingTransfer = some t)
    (ran : (Execution.complete p.buffer t).run p.released = .error f q) :
    p.resumeTransfer = (.error f, q.recordFault f) := by
  rw [resumeTransfer_eq pending, ran]

theorem setReg_comm {r s : Register} (apart : r.Apart s) (p : Processor δ) (value other : Word) :
    (p.setReg r value).setReg s other = (p.setReg s other).setReg r value := by
  simp only [setReg, RegisterFile.set_comm _ apart]

theorem reg_setReg_of_apart {r s : Register} (apart : r.Apart s) (p : Processor δ) (value : Word) :
    (p.setReg r value).reg s = p.reg s :=
  RegisterFile.get_set_of_apart _ apart value

end Processor

/-! A completion neither reads nor moves the place of execution -/

namespace Processor

theorem memory_syncEip (p : Processor δ) : p.syncEip.memory = p.memory := rfl

theorem storeAt_syncEip (p : Processor δ) (address value : Word) (size : Nat) :
    p.syncEip.storeAt address value size = (p.storeAt address value size).syncEip := rfl

variable {r : Register} (other : r ≠ .eip) (p : Processor δ)
include other

theorem setReg_syncEip (value : Word) :
    p.syncEip.setReg r value = (p.setReg r value).syncEip := by
  have same : (p.setReg r value).nextInstruction = p.nextInstruction := rfl
  rw [syncEip, syncEip, same, setReg_comm (Register.apart_eip other)]

theorem reg_syncEip : p.syncEip.reg r = p.reg r := by
  rw [syncEip, reg_setReg_of_apart (Register.apart_eip other).symm]

theorem advance_syncEip (size : Nat) : p.syncEip.advance r size = (p.advance r size).syncEip := by
  rw [advance, reg_syncEip other, setReg_syncEip other]
  rfl

end Processor

namespace Execution

open Processor

theorem carries_complete_jumpTo (address value : Word) (t : PendingTransfer) :
    Carries (Processor.jumpTo (δ := δ) · address) (complete value t) (complete value t) := by
  intro p done failed
  cases t with
  | input target size => rfl
  | inputString size =>
      simp only [complete, outcome_bind, outcome_reg, outcome_writeMemory, outcome_advance]
      rfl
  | output pointer size => cases pointer <;> rfl

theorem carries_complete_syncEip (value : Word) {t : PendingTransfer} (spares : t.SparesEip) :
    Carries (Processor.syncEip (δ := δ)) (complete value t) (complete value t) := by
  intro p done failed
  cases t with
  | input target size =>
      simp only [complete, outcome_discard, outcome_setReg, setReg_syncEip spares]
  | inputString size =>
      have moved (q : Processor δ) := advance_syncEip (r := .edi) (by decide) q size
      simp only [complete, outcome_bind, outcome_reg, outcome_writeMemory, outcome_advance,
        reg_syncEip (r := .edi) (by decide) p, memory_syncEip, storeAt_syncEip, moved]
  | output pointer size =>
      cases pointer with
      | none => simp only [complete, outcome_pure]
      | some r =>
          have other : r ≠ .eip := fun same => spares (congrArg some same)
          simp only [complete, outcome_advance, advance_syncEip other]

end Execution

end ReducedX86
