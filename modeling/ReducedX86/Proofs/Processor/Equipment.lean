import ReducedX86.Proofs.Processor.Transfer

/-!
What only an exchange with the device can change.

The memory keeps its size, and the device and what is pending change only where an instruction asks
for input or offers output. So what holds of these, and survives any exchange, survives any step.
-/
namespace ReducedX86

-- Two processors are compared field by field; what is in the registers need not be looked into.
attribute [local irreducible] RegisterFile.set

variable {δ α β : Type}

/-- The parts of a processor that instructions reach only through port transfers. -/
structure Equipment (δ : Type) where
  memorySize : Nat
  device : δ
  pendingTransfer : Option PendingTransfer

namespace Processor

def equipment (p : Processor δ) : Equipment δ where
  memorySize := p.memory.size
  device := p.device
  pendingTransfer := p.pendingTransfer

theorem equipment_storeAt (p : Processor δ) (address value : Word) (size : Nat) :
    (p.storeAt address value size).equipment = p.equipment := by
  simp only [equipment, storeAt, Memory.size_store]

end Processor

namespace Equipment

def view : View δ (Equipment δ) where
  look := Processor.equipment
  look_setReg _ _ _ := rfl
  look_withFlags _ _ := rfl
  look_jumpTo _ _ := rfl
  look_storeAt := Processor.equipment_storeAt
  look_handlerTable _ _ := rfl
  look_draws _ _ := rfl

/-- The equipment after the device has answered; what it refuses is left pending. -/
def exchanged (e : Equipment δ) (accepted : Bool) (device : δ) (t : PendingTransfer) :
    Equipment δ :=
  { e with device, pendingTransfer := if accepted then e.pendingTransfer else some t }

variable [PortDevice δ]

/-- No exchange with the device ends what `P` says. -/
structure Stable (P : Equipment δ → Prop) : Prop where
  input {e : Equipment δ} (now : Reading) (port : Word) (size : Nat) (buffer : Word)
      (t : PendingTransfer) (h : P e) :
    let answer := PortDevice.input e.device now port size buffer
    P (e.exchanged answer.1 answer.2.2 t)
  output {e : Equipment δ} (now : Reading) (port : Word) (size : Nat) (buffer : Word)
      (t : PendingTransfer) (h : P e) :
    let answer := PortDevice.output e.device now port size buffer
    P (e.exchanged answer.1 answer.2 t)

end Equipment

namespace Execution

theorem keeps_complete (v : View δ β) (value : Word) (t : PendingTransfer) :
    Keeps v (complete value t) := by
  intro p
  cases t with
  | input target size | inputString size => simp [complete]
  | output pointer size => cases pointer <;> simp [complete]

/-- However it ends, the execution keeps what `P` says of the equipment. -/
def Preserves (P : Equipment δ → Prop) (x : Execution δ α) : Prop :=
  ∀ p, P p.equipment → Outcome x (fun _ q => P q.equipment) (fun _ q => P q.equipment) p

theorem Keeps.preserves {P : Equipment δ → Prop} {x : Execution δ α}
    (keeps : Keeps Equipment.view x) : Preserves P x := by
  intro p holds
  apply (keeps p).mono
  · intro _ q same
    have same : q.equipment = p.equipment := same
    rwa [same]
  · intro _ q same
    have same : q.equipment = p.equipment := same
    rwa [same]

theorem Preserves.bind {P : Equipment δ → Prop} {x : Execution δ α} {k : α → Execution δ β}
    (first : Preserves P x) (rest : ∀ a, Preserves P (k a)) : Preserves P (x >>= k) := by
  intro p holds
  rw [outcome_bind]
  exact (first p holds).mono (fun a q holds => rest a q holds) fun _ _ holds => holds

theorem keeps_read (v : View δ β) (o : Operand) : Keeps v (read o) := by
  intro p
  simp

theorem keeps_reg (v : View δ β) (r : Register) : Keeps v (reg r) := fun _ => rfl

theorem keepsEquipment_control (op : ControlOp) (operands : Operands) :
    Keeps (δ := δ) Equipment.view (control op operands) := by
  intro p
  cases op with
  | int =>
      obtain ⟨number | number, b⟩ := operands
      · rfl
      · simp only [control, interrupt, outcome_bind, outcome_read, outcome_ite, outcome_modify]
        exact ⟨fun _ _ => trivial, fun _ => ⟨fun _ => rfl, fun _ => keeps_enterHandler _ _ p⟩⟩
  | hlt => rfl
  | call | ret | iret | jmp =>
      obtain ⟨a | a, b⟩ := operands <;> simp [control, call, push, ret, interruptReturn]

theorem keeps_readMemory (v : View δ β) (address : Word) (size : Nat) :
    Keeps v (readMemory address size) := by
  intro p
  simp

variable [PortDevice δ] {P : Equipment δ → Prop} (stable : Equipment.Stable P)
include stable

theorem preserves_receive (port : Word) (size : Nat) (t : PendingTransfer) :
    Preserves P (receive port size t) := by
  intro p holds
  have answered := stable.input p.now port size p.buffer t holds
  obtain ⟨⟨accepted, value, device⟩, answer⟩ : ∃ answer, p.inputFrom port size = answer := ⟨_, rfl⟩
  change PortDevice.input p.equipment.device p.now port size p.buffer = _ at answer
  rw [answer] at answered
  rw [Outcome, receive_run p port size t answer]
  cases accepted with
  | true => exact (keeps_complete Equipment.view value t).preserves (p.exchanged value device) answered
  | false => exact answered

theorem preserves_send (port value : Word) (size : Nat) (pointer : Option Register) :
    Preserves P (send port value size pointer) := by
  intro p holds
  have answered := stable.output p.now port size value (.output pointer size) holds
  obtain ⟨⟨accepted, device⟩, answer⟩ : ∃ answer, p.outputTo port value size = answer := ⟨_, rfl⟩
  change PortDevice.output p.equipment.device p.now port size value = _ at answer
  rw [answer] at answered
  rw [Outcome, send_run p port size value pointer answer]
  cases accepted with
  | true => exact (keeps_complete Equipment.view value _).preserves (p.exchanged value device) answered
  | false => exact answered

theorem preserves_port (op : PortOp) (operands : Operands) : Preserves P (port op operands) := by
  unfold port
  split
  · exact (keeps_read _ _).preserves.bind fun _ => preserves_receive stable _ _ _
  · exact (keeps_read _ _).preserves.bind fun _ => (keeps_read _ _).preserves.bind fun _ =>
      preserves_send stable _ _ _ _
  · exact (keeps_reg _ _).preserves.bind fun _ => preserves_receive stable _ _ _
  · exact (keeps_reg _ _).preserves.bind fun _ => (keeps_readMemory _ _ _).preserves.bind fun _ =>
      (keeps_reg _ _).preserves.bind fun _ => preserves_send stable _ _ _ _
  · exact (keeps_pure _ ()).preserves

end Execution

variable [PortDevice δ] {P : Equipment δ → Prop} (stable : Equipment.Stable P)
include stable

theorem Instruction.preserves_execute (i : Instruction) : Execution.Preserves P i.execute := by
  obtain ⟨op, op1, op2, position⟩ := i
  cases op with
  | arithmetic op => exact (Execution.keeps_arithmetic _ op _).preserves
  | logic op => exact (Execution.keeps_logic _ op _).preserves
  | shift op => exact (Execution.keeps_shift _ op _).preserves
  | bits op => exact (Execution.keeps_bits _ op _).preserves
  | transfer op => exact (Execution.keeps_transfer _ op _).preserves
  | stack op => exact (Execution.keeps_stack _ op _).preserves
  | control op => exact (Execution.keepsEquipment_control op _).preserves
  | loop op => exact (Execution.keeps_loop _ op _).preserves
  | jump c => exact (Execution.keeps_conditionalJump _ c _).preserves
  | move c => exact (Execution.keeps_conditionalMove _ c _).preserves
  | set c => exact (Execution.keeps_conditionalSet _ c _).preserves
  | string op w => exact (Execution.keeps_string _ op w).preserves
  | port op => exact Execution.preserves_port stable op _
  | wide op => exact (Execution.keeps_wide _ op _).preserves
  | system op => exact (Execution.keeps_system _ op _).preserves
  | rep => exact (Execution.keeps_countRepetition _).discard.preserves

namespace Processor

theorem preserves_executeBody : Execution.Preserves P executeBody := by
  intro p holds
  simp only [executeBody, outcome_bind, outcome_get]
  split
  · rename_i body found
    exact body.preserves_execute stable p holds
  · exact holds

theorem preserves_executeAt (address : Word) (i : Instruction) :
    Execution.Preserves P (executeAt address i) := by
  intro p holds
  by_cases mark : i.op = .rep
  · rw [outcome_executeAt_rep mark]
    apply ((Execution.keeps_countRepetition Equipment.view).preserves p holds).mono
    · intro more q holds
      split
      · exact preserves_executeBody stable q holds
      · exact holds
    · intro f q holds
      exact holds
  · rw [executeAt_of_unmarked mark]
    exact i.preserves_execute stable p holds

omit [PortDevice δ] stable in
theorem equipment_deliver (p : Processor δ) : (deliver p).state.equipment = p.equipment := by
  have kept (number : UInt8) (rest : List UInt8) :=
    Execution.keeps_enterHandler Equipment.view (UInt32.ofNat number.toNat) (p.requesting rest)
  have came := delivers p
  generalize deliver p = d at came ⊢
  cases came with
  | idle => rfl
  | @entered number rest q enabled queued ran =>
      have same := (kept number rest).of_ok ran
      exact same
  | @faulted number rest f q enabled queued ran =>
      have same := (kept number rest).of_error ran
      exact same

theorem stepInstruction_equipment {p : Processor δ} (holds : P p.equipment) :
    P (stepInstruction p).2.equipment := by
  have kept (i : Instruction) :=
    preserves_executeAt stable p.nextInstruction i (p.jumpTo (p.nextInstruction + 4)) holds
  have came := executes p
  generalize stepInstruction p = r at came ⊢
  cases came with
  | absent => exact holds
  | @done i q found ran =>
      have kept := (kept i).of_ok ran
      exact kept
  | @faulted i f q found ran =>
      have kept := (kept i).of_error ran
      exact kept

/-- What holds of the equipment before a step, and survives any exchange, holds after it. -/
theorem step_equipment (stepping : Bool) {p : Processor δ} (holds : P p.equipment) :
    P (step stepping p).2.equipment := by
  have delivered : P (deliver p.syncEip).state.equipment := by
    rw [equipment_deliver]
    exact holds
  refine step_preserves (P := fun q => P q.equipment) stepping delivered ?_
  intro q held
  exact stepInstruction_equipment stable held

omit stable in
theorem memorySize_step (stepping : Bool) (p : Processor δ) :
    (step stepping p).2.memory.size = p.memory.size :=
  step_equipment (P := fun e => e.memorySize = p.memory.size)
    ⟨fun _ _ _ _ _ same => same, fun _ _ _ _ _ same => same⟩ stepping rfl

omit [PortDevice δ] stable in
/-- Completing a transfer leaves nothing pending, and the device is not asked again. -/
theorem equipment_resumeTransfer (p : Processor δ) :
    p.resumeTransfer.2.equipment = { p.equipment with pendingTransfer := none } := by
  cases pending : p.pendingTransfer with
  | none =>
      rw [resumeTransfer, pending]
      simp only [equipment, pending]
  | some t =>
      have kept := Execution.keeps_complete Equipment.view p.buffer t p.released
      cases ran : (Execution.complete p.buffer t).run p.released with
      | ok u q =>
          have same := kept.of_ok ran
          rw [resumeTransfer_of_ok pending ran]
          exact same
      | error f q =>
          have same := kept.of_error ran
          rw [resumeTransfer_of_error pending ran]
          exact same

end Processor

end ReducedX86
