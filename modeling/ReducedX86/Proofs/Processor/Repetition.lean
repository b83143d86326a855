import ReducedX86.Device.Script
import ReducedX86.Proofs.Execution.Atomicity
import ReducedX86.Proofs.Processor.SingleStepping
import ReducedX86.Proofs.Processor.Transfer

/-!
Repeated instructions.

A repeat mark spreads a counted loop over steps: each runs the body once and stays on the mark, and
one more leaves it. A string instruction neither reads nor moves the count or the place of
execution, so the steps are a loop around the body as it stands: after `k` of them the processor is
where `k` executions in a row take it, with `k` less to count.
-/
namespace ReducedX86

-- Two processors are compared field by field; what is in the registers need not be looked into.
attribute [local irreducible] RegisterFile.set

variable {δ : Type}

theorem Word.sub_ofNat_ne_zero {count : Word} {k : Nat} (less : k < count.toNat) :
    count - UInt32.ofNat k ≠ 0 := by
  have bound := count.toNat_lt
  intro zero
  have same : count = UInt32.ofNat k := by grind
  rw [same, UInt32.toNat_ofNat'] at less
  omega

theorem Word.sub_ofNat_succ (count : Word) (k : Nat) :
    count - UInt32.ofNat k - 1 = count - UInt32.ofNat (k + 1) := by
  rw [UInt32.ofNat_add]
  grind

/-- The register has no part in the count and the place of a repetition. -/
def Register.Spare (r : Register) : Prop := r.Apart .ecx ∧ r.Apart .eip

instance (r : Register) : Decidable r.Spare := by
  unfold Register.Spare
  infer_instance

namespace Processor

/-- The processor with `count` repetitions left, at another place of execution. -/
def placed (p : Processor δ) (count eip next : Word) : Processor δ :=
  ((p.setReg .ecx count).setReg .eip eip).jumpTo next

section Placed

variable (p : Processor δ) (count eip next : Word)

theorem syncEip_eq_placed :
    p.syncEip = p.placed (p.reg .ecx) p.nextInstruction p.nextInstruction := by
  simp only [syncEip, placed, setReg, reg, RegisterFile.set_get]
  rfl

theorem syncEip_placed : (p.placed count eip next).syncEip = p.placed count next next := by
  simp only [syncEip, placed, setReg, jumpTo, RegisterFile.set_set]

theorem setReg_ecx_placed (other : Word) :
    (p.placed count eip next).setReg .ecx other = p.placed other eip next := by
  have apart : Register.Apart .eip .ecx := by decide
  simp only [placed, setReg, jumpTo, RegisterFile.set_comm _ apart, RegisterFile.set_set]

theorem reg_ecx_placed : (p.placed count eip next).reg .ecx = count := by
  have apart : Register.Apart .eip .ecx := by decide
  have same :
      (p.placed count eip next).reg .ecx = ((p.setReg .ecx count).setReg .eip eip).reg .ecx := rfl
  rw [same, reg_setReg_of_apart apart]
  exact p.registers.get_set_whole rfl count

theorem jumpTo_placed (address : Word) :
    (p.placed count eip next).jumpTo address = p.placed count eip address := rfl

theorem atTime_placed (now : Reading) :
    (p.placed count eip next).atTime now = (p.atTime now).placed count eip next := rfl

theorem rewound_placed (f : Fault) (address : Word) :
    (p.placed count eip next).rewound f address = (p.setReg .ecx count).rewound f address := by
  simp only [rewound, syncEip, placed, setReg, jumpTo, recordFault, RegisterFile.set_set]

@[simp] theorem memory_placed : (p.placed count eip next).memory = p.memory := rfl

@[simp] theorem storeAt_placed (address value : Word) (size : Nat) :
    (p.placed count eip next).storeAt address value size =
      (p.storeAt address value size).placed count eip next := rfl

@[simp] theorem exchanged_placed (buffer : Word) (device : δ) :
    (p.placed count eip next).exchanged buffer device =
      (p.exchanged buffer device).placed count eip next := rfl

@[simp] theorem suspended_placed (t : PendingTransfer) :
    (p.placed count eip next).suspended t = (p.suspended t).placed count eip next := rfl

@[simp] theorem buffer_placed : (p.placed count eip next).buffer = p.buffer := rfl

section Spare

variable {r : Register} (spare : r.Spare)
include spare

@[simp] theorem reg_placed : (p.placed count eip next).reg r = p.reg r := by
  have same : (p.placed count eip next).reg r = ((p.setReg .ecx count).setReg .eip eip).reg r := rfl
  rw [same, reg_setReg_of_apart spare.2.symm, reg_setReg_of_apart spare.1.symm]

@[simp] theorem setReg_placed (value : Word) :
    (p.placed count eip next).setReg r value = (p.setReg r value).placed count eip next := by
  have same : (p.placed count eip next).setReg r value =
    (((p.setReg .ecx count).setReg .eip eip).setReg r value).jumpTo next := rfl
  rw [same, setReg_comm spare.2.symm, setReg_comm spare.1.symm]
  rfl

@[simp] theorem advance_placed (size : Nat) :
    (p.placed count eip next).advance r size = (p.advance r size).placed count eip next := by
  have same : (p.placed count eip next).flags = p.flags := rfl
  rw [advance, reg_placed _ _ _ _ spare, setReg_placed _ _ _ _ spare, same, advance]

end Spare

end Placed

/-- What decides which instructions stand where and whether an interrupt is delivered. -/
def setting (p : Processor δ) : Array Instruction × Nat × Flags × List UInt8 :=
  (p.program, p.memory.size, p.flags, p.interruptQueue)

@[simp] theorem setting_setReg (p : Processor δ) (r : Register) (value : Word) :
    (p.setReg r value).setting = p.setting := rfl

@[simp] theorem setting_storeAt (p : Processor δ) (address value : Word) (size : Nat) :
    (p.storeAt address value size).setting = p.setting := by
  simp only [setting, storeAt, Memory.size_store]

@[simp] theorem setting_advance (p : Processor δ) (r : Register) (size : Nat) :
    (p.advance r size).setting = p.setting := rfl

@[simp] theorem setting_exchanged (p : Processor δ) (buffer : Word) (device : δ) :
    (p.exchanged buffer device).setting = p.setting := rfl

@[simp] theorem setting_suspended (p : Processor δ) (t : PendingTransfer) :
    (p.suspended t).setting = p.setting := rfl

end Processor

theorem Operator.repeatable_cases {op : Operator} (repeatable : op.signature.repeatable) :
    (∃ o w, op = .string o w) ∨ (∃ w, op = .port (.ins w)) ∨ ∃ w, op = .port (.outs w) := by
  cases op with
  | string o w => exact .inl ⟨o, w, rfl⟩
  | port o =>
      cases o with
      | ins w => exact .inr (.inl ⟨w, rfl⟩)
      | outs w => exact .inr (.inr ⟨w, rfl⟩)
      | input | output => cases repeatable
  | arithmetic o | logic o | bits o | transfer o | stack o | control o | system o =>
      cases o <;> cases repeatable
  | _ => cases repeatable

namespace Execution

open Processor

theorem carries_string_placed (op : StringOp) (w : Width) (count eip next : Word) :
    Carries (placed (δ := δ) · count eip next) (string op w) (string op w) := by
  intro p done failed
  cases op <;> cases w <;>
    simp (disch := decide) [string, Width.bytes, Register.accumulator]

theorem string_setting (op : StringOp) (w : Width) (p : Processor δ) :
    Outcome (string op w) (fun _ q => q.setting = p.setting) (fun _ _ => True) p := by
  cases op <;> simp [string]

variable [PortDevice δ]

theorem carries_inputString_placed (size : Nat) (count eip next : Word) :
    Carries (placed (δ := δ) · count eip next) (inputString size) (inputString size) := by
  intro p done failed
  have asks (port : Word) : (p.placed count eip next).inputFrom port size = p.inputFrom port size :=
    rfl
  simp (disch := decide) [inputString, asks]

theorem carries_outputString_placed (size : Nat) (count eip next : Word) :
    Carries (placed (δ := δ) · count eip next) (outputString size) (outputString size) := by
  intro p done failed
  have asks (port value : Word) :
      (p.placed count eip next).outputTo port value size = p.outputTo port value size := rfl
  simp (disch := decide) [outputString, asks]

theorem inputString_setting (size : Nat) (p : Processor δ) :
    Outcome (inputString size) (fun _ q => q.setting = p.setting) (fun _ _ => True) p := by
  simp [inputString]

theorem outputString_setting (size : Nat) (p : Processor δ) :
    Outcome (outputString size) (fun _ q => q.setting = p.setting) (fun _ _ => True) p := by
  simp [outputString]

end Execution

namespace Instruction

variable [PortDevice δ] {body : Instruction} (repeatable : body.op.signature.repeatable)
include repeatable

/-- What can be repeated has nothing to do with the count and the place of the repetition. -/
theorem carries_execute_placed (count eip next : Word) :
    Carries (Processor.placed (δ := δ) · count eip next) body.execute body.execute := by
  obtain ⟨op, op1, op2, position⟩ := body
  rcases Operator.repeatable_cases repeatable with ⟨o, w, rfl⟩ | ⟨w, rfl⟩ | ⟨w, rfl⟩
  · exact Execution.carries_string_placed o w count eip next
  · exact Execution.carries_inputString_placed w.bytes count eip next
  · exact Execution.carries_outputString_placed w.bytes count eip next

theorem execute_setting (p : Processor δ) :
    Outcome body.execute (fun _ q => q.setting = p.setting) (fun _ _ => True) p := by
  obtain ⟨op, op1, op2, position⟩ := body
  rcases Operator.repeatable_cases repeatable with ⟨o, w, rfl⟩ | ⟨w, rfl⟩ | ⟨w, rfl⟩
  · exact Execution.string_setting o w p
  · exact Execution.inputString_setting w.bytes p
  · exact Execution.outputString_setting w.bytes p

/-- A fault comes before anything but an exchange with the device. -/
theorem execute_fault (p : Processor δ) :
    Outcome body.execute (fun _ _ => True) (fun _ q => q = p.exchanged q.buffer q.device) p := by
  have same (q : Processor δ) (unchanged : q = p) : q = p.exchanged q.buffer q.device := by
    rw [unchanged]
    rfl
  obtain ⟨op, op1, op2, position⟩ := body
  rcases Operator.repeatable_cases repeatable with ⟨o, w, rfl⟩ | ⟨w, rfl⟩ | ⟨w, rfl⟩
  · exact (Execution.string_allOrNothing o w p).mono (fun _ _ => id) fun _ => same
  · exact Execution.inputString_fault w.bytes p
  · exact (Execution.port_allOrNothing (.outs w) (op1, op2) nofun p).mono (fun _ _ => id)
      fun _ => same

end Instruction

namespace Processor

/-- At `address` stands a repeat mark, after it a body that can be repeated, and no interrupt is
delivered. -/
structure Repeats (p : Processor δ) (address : Word) (body : Instruction) : Prop where
  mark : ∃ i, p.instructionAt? address = some i ∧ i.op = .rep
  follows : p.instructionAt? (address + 4) = some body
  repeatable : body.op.signature.repeatable
  silent : p.flags.interrupt = false ∨ p.interruptQueue = []

theorem Repeats.of_setting {p q : Processor δ} {address : Word} {body : Instruction}
    (h : p.Repeats address body) (same : q.setting = p.setting) : q.Repeats address body := by
  simp only [setting, Prod.mk.injEq] at same
  obtain ⟨program, size, flags, interruptQueue⟩ := same
  have found (a : Word) : q.instructionAt? a = p.instructionAt? a := by
    rw [instructionAt?, instructionAt?, limit, limit, Memory.limit, Memory.limit, program, size]
  constructor
  · rw [found]
    exact h.mark
  · rw [found]
    exact h.follows
  · exact h.repeatable
  · rw [flags, interruptQueue]
    exact h.silent

theorem countRepetition_placed (p : Processor δ) (address : Word) {count : Word}
    (more : count ≠ 0) :
    Execution.countRepetition.run (p.placed count address (address + 4)) =
      .ok true (p.placed (count - 1) address (address + 4)) := by
  apply Outcome.run_eq_ok
  simp [Execution.countRepetition, reg_ecx_placed, setReg_ecx_placed, more]

variable [PortDevice δ]

theorem step_syncEip (stepping : Bool) (p : Processor δ) :
    step stepping p.syncEip = step stepping p := by
  rw [step, step, syncEip_syncEip]

section Step

variable {p : Processor δ} {address : Word} {body : Instruction} (h : p.Repeats address body)
include h

/-- The step executes the instruction that stands at the mark. -/
theorem Repeats.step_eq (stepping : Bool) (count : Word) :
    step stepping (p.placed count address address) =
      stepInstruction (p.placed count address address) := by
  have silent : Delivers (p.placed count address address) (.none (p.placed count address address)) :=
    .idle h.silent
  rw [step, syncEip_placed, silent.eq]

/-- With repetitions left, a step runs the body once. -/
theorem Repeats.step_ok {count : Word} (more : count ≠ 0) {q : Processor δ}
    (ran : body.execute.run p = .ok () q) (stepping : Bool) :
    step stepping (p.placed count address address) =
      (true, q.placed (count - 1) address address) := by
  obtain ⟨i, found, mark⟩ := h.mark
  have body' :
      (p.placed (count - 1) address (address + 4)).instructionAt? (address + 4) = some body :=
    h.follows
  have executed : (executeAt address i).run (p.placed count address (address + 4)) =
      .ok () (q.placed (count - 1) address address) := by
    have ran' := (Instruction.carries_execute_placed h.repeatable (count - 1) address
      (address + 4)).run_ok ran
    rw [executeAt_of_mark mark, countRepetition_placed p address more]
    simp only [executeBody_of_found body', ran', jumpTo_placed]
  have done : Executes (p.placed count address address) _ := .done found executed
  rw [h.step_eq, done.eq, syncEip_placed]

/-- A body that faults has been counted, and the mark runs next. -/
theorem Repeats.step_error {count : Word} (more : count ≠ 0) {f : Fault} {q : Processor δ}
    (ran : body.execute.run p = .error f q) (stepping : Bool) :
    step stepping (p.placed count address address) =
      (true, ((p.exchanged q.buffer q.device).setReg .ecx (count - 1)).rewound f address) := by
  obtain ⟨i, found, mark⟩ := h.mark
  have body' :
      (p.placed (count - 1) address (address + 4)).instructionAt? (address + 4) = some body :=
    h.follows
  have executed : (executeAt address i).run (p.placed count address (address + 4)) =
      .error f (q.placed (count - 1) address address) := by
    have ran' := (Instruction.carries_execute_placed h.repeatable (count - 1) address
      (address + 4)).run_error ran
    rw [executeAt_of_mark mark, countRepetition_placed p address more]
    simp only [executeBody_of_found body', ran', jumpTo_placed]
  have faulted : Executes (p.placed count address address) _ := .faulted found executed
  have kept := (Instruction.execute_fault h.repeatable p).of_error ran
  rw [h.step_eq, faulted.eq, rewound_placed, ← kept]
  rfl

/-- With none left, a step goes past the body. -/
theorem Repeats.step_done (stepping : Bool) :
    step stepping (p.placed 0 address address) =
      (true, p.placed 0 (address + 8) (address + 8)) := by
  obtain ⟨i, found, mark⟩ := h.mark
  have counted : Execution.countRepetition.run (p.placed 0 address (address + 4)) =
      .ok false (p.placed 0 address (address + 4)) := by
    apply Outcome.run_eq_ok
    simp [Execution.countRepetition, reg_ecx_placed]
  have past : address + 4 + 4 = address + 8 := by grind
  have executed : (executeAt address i).run (p.placed 0 address (address + 4)) =
      .ok () (p.placed 0 address (address + 8)) := by
    rw [executeAt_of_mark mark, counted, ← past]
    rfl
  have done : Executes (p.placed 0 address address) _ := .done found executed
  rw [h.step_eq, done.eq, syncEip_placed]

end Step

end Processor

variable [PortDevice δ]

/-- Executes an instruction `k` times, time `i` at `clock i`. -/
def Instruction.executions (body : Instruction) (clock : Nat → Reading) : Nat → Execution δ Unit
  | 0 => pure ()
  | k + 1 => do
      body.executions clock k
      modify (·.atTime (clock k))
      body.execute

namespace Processor

variable {p : Processor δ} {body : Instruction}

theorem executions_succ_run {clock : Nat → Reading} {k : Nat} {q : Processor δ}
    (before : (body.executions clock k).run p = .ok () q) :
    (body.executions clock (k + 1)).run p = body.execute.run (q.atTime (clock k)) := by
  simp only [Instruction.executions, EStateM.run_bind, before, EStateM.run_modify]

theorem executions_succ {clock : Nat → Reading} {k : Nat} {r : Processor δ}
    (ran : (body.executions clock (k + 1)).run p = .ok () r) :
    ∃ q, (body.executions clock k).run p = .ok () q ∧
      body.execute.run (q.atTime (clock k)) = .ok () r := by
  cases before : (body.executions clock k).run p with
  | ok u q => exact ⟨q, rfl, (executions_succ_run before).symm.trans ran⟩
  | error f q =>
      simp only [Instruction.executions, EStateM.run_bind, before] at ran
      cases ran

/-- While the body does not fault, `k` steps are `k` executions of it. -/
theorem Repeats.stepped_eq (h : p.Repeats p.nextInstruction body) (stepping : Nat → Bool)
    (clock : Nat → Reading) {k : Nat} (upper : k ≤ (p.reg .ecx).toNat) {q : Processor δ}
    (ran : (body.executions clock k).run p = .ok () q) :
    q.Repeats p.nextInstruction body ∧
      (stepped stepping clock p k).syncEip =
        q.placed (p.reg .ecx - UInt32.ofNat k) p.nextInstruction p.nextInstruction := by
  induction k generalizing q with
  | zero =>
      cases ran
      exact ⟨h, (syncEip_eq_placed p).trans (by simp)⟩
  | succ k ih =>
      obtain ⟨q', before, ran'⟩ := executions_succ ran
      obtain ⟨repeats, same⟩ := ih (by omega) before
      have repeats' : (q'.atTime (clock k)).Repeats p.nextInstruction body := repeats.of_setting rfl
      have next := repeats'.step_ok (Word.sub_ofNat_ne_zero upper) ran' (stepping k)
      refine ⟨repeats'.of_setting ((Instruction.execute_setting h.repeatable _).of_ok ran'), ?_⟩
      have timed : ((stepped stepping clock p k).atTime (clock k)).syncEip =
          (stepped stepping clock p k).syncEip.atTime (clock k) := rfl
      rw [stepped, ← step_syncEip, timed, same, atTime_placed, next, syncEip_placed, Word.sub_ofNat_succ]

/-- A repeat mark is an exact counted loop. If no execution of the body faults, one step more than
there are to count leaves what the executions in a row leave, with nothing left to count and the
instruction after the body to run next. If an execution is the first to fault, its step leaves what
those before it leave, apart from the exchange with the device: that execution is counted, the fault
is recorded and the mark runs next. A transfer that the device refuses is left pending on both
sides. -/
theorem repetition_executes (repeats : p.Repeats p.nextInstruction body) (stepping : Nat → Bool)
    (clock : Nat → Reading) :
    let mark := p.nextInstruction
    let count := p.reg .ecx
    (∀ q, (body.executions clock count.toNat).run p = .ok () q →
      stepped stepping clock p (count.toNat + 1) =
        (((q.atTime (clock count.toNat)).setReg .ecx 0).jumpTo (mark + 8)).syncEip) ∧
    ∀ k < count.toNat, ∀ q f r, (body.executions clock k).run p = .ok () q →
      body.execute.run (q.atTime (clock k)) = .error f r →
      stepped stepping clock p (k + 1) =
        (((q.atTime (clock k)).exchanged r.buffer r.device).setReg .ecx
          (count - UInt32.ofNat (k + 1))).rewound f mark := by
  intro mark count
  have timed (k : Nat) : ((stepped stepping clock p k).atTime (clock k)).syncEip =
      (stepped stepping clock p k).syncEip.atTime (clock k) := rfl
  constructor
  · intro q ran
    obtain ⟨repeats', same⟩ := repeats.stepped_eq stepping clock le_rfl ran
    have repeats'' : (q.atTime (clock count.toNat)).Repeats mark body := repeats'.of_setting rfl
    rw [UInt32.ofNat_toNat, UInt32.sub_self] at same
    rw [stepped, ← step_syncEip, timed, same, atTime_placed, repeats''.step_done]
    simp only [placed, syncEip, setReg, jumpTo]
  · intro k less q f r ran faulted
    obtain ⟨repeats', same⟩ := repeats.stepped_eq stepping clock less.le ran
    have repeats'' : (q.atTime (clock k)).Repeats mark body := repeats'.of_setting rfl
    rw [stepped, ← step_syncEip, timed, same, atTime_placed,
      repeats''.step_error (Word.sub_ofNat_ne_zero less) faulted, Word.sub_ofNat_succ]

/-- With room for two bytes, `rep stosb` stores two in three steps; asked for three, it faults in
the third step. -/
theorem repetition_executes_stosb :
    let body : Instruction := { op := .string .stos .byte }
    let fresh : Processor Script := (Processor.new 16 {} default).load #[{ op := .rep }, body]
    let p := fun count => (fresh.setReg .edi 1038).setReg .ecx count
    (∃ q, (body.executions (fun _ => {}) 2).run (p 2) = .ok () q ∧
      stepped (fun _ => false) (fun _ => {}) (p 2) 3 =
        (((q.atTime {}).setReg .ecx 0).jumpTo 1048).syncEip) ∧
    ∃ q f r, (body.executions (fun _ => {}) 2).run (p 3) = .ok () q ∧
      body.execute.run (q.atTime {}) = .error f r ∧
      stepped (fun _ => false) (fun _ => {}) (p 3) 3 =
        (((q.atTime {}).exchanged r.buffer r.device).setReg .ecx 0).rewound f 1040 := by
  intro body fresh p
  have mark : fresh.instructionAt? fresh.nextInstruction = some { op := .rep } := by decide +kernel
  have follows : fresh.instructionAt? (fresh.nextInstruction + 4) = some body := by decide +kernel
  have loaded : fresh.Repeats fresh.nextInstruction body :=
    ⟨⟨{ op := .rep }, mark, rfl⟩, follows, rfl, .inl rfl⟩
  have repeats (count : Word) : (p count).Repeats (p count).nextInstruction body :=
    loaded.of_setting (by simp only [p, setting_setReg])
  have stores (count : Word) (few : count = 2 ∨ count = 3) :
      ∃ q, (body.executions (fun _ => {}) 2).run (p count) = .ok () q := by
    have succeeds : (match (body.executions (fun _ => {}) 2).run (p count) with
        | .ok _ _ => true
        | .error _ _ => false) = true := by
      rcases few with rfl | rfl <;> decide +kernel
    split at succeeds
    · rename_i q ran
      exact ⟨q, ran⟩
    · cases succeeds
  have next (count : Word) : (p count).nextInstruction = 1040 := by
    have same : fresh.nextInstruction = 1040 := by decide +kernel
    exact same
  have two : (p 2).reg .ecx = UInt32.ofNat 2 := by decide +kernel
  have three : (p 3).reg .ecx = UInt32.ofNat 3 := by decide +kernel
  constructor
  · obtain ⟨q, ran⟩ := stores 2 (.inl rfl)
    have loop := repetition_executes (repeats 2) (fun _ => false) (fun _ => {})
    rw [two, next] at loop
    exact ⟨q, ran, loop.1 q ran⟩
  · obtain ⟨q, ran⟩ := stores 3 (.inr rfl)
    have third : (match (body.executions (fun _ => {}) 3).run (p 3) with
        | .ok _ _ => true
        | .error _ _ => false) = false := by decide +kernel
    cases ran' : body.execute.run (q.atTime {}) with
    | ok u r =>
        rw [executions_succ_run ran, ran'] at third
        cases third
    | error f r =>
        have loop := repetition_executes (repeats 3) (fun _ => false) (fun _ => {})
        rw [three, next] at loop
        exact ⟨q, f, r, ran, ran', loop.2 2 (by decide) q f r ran ran'⟩

end Processor

end ReducedX86
