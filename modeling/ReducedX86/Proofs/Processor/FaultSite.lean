import ReducedX86.Device.Script
import ReducedX86.Proofs.Processor.Transfer

/-!
Where execution stands after a fault.

A fault of a step leaves `eip` and the next instruction on the instruction that raised it. A store
that faults when the host completes an `ins` does not: the step of the `ins` is over, so execution
stands on the repeat mark if there is one, and otherwise on the instruction after the `ins`.
-/
namespace ReducedX86

variable {δ : Type}

attribute [local irreducible] RegisterFile.set

namespace Processor

/-- Execution stands on the instruction at `address`, and `eip` tells so. -/
structure StandsAt (p : Processor δ) (address : Word) : Prop where
  nextInstruction : p.nextInstruction = address
  eip : p.reg .eip = address

theorem syncEip_standsAt (p : Processor δ) : p.syncEip.StandsAt p.nextInstruction where
  nextInstruction := rfl
  eip := p.registers.get_set_whole rfl p.nextInstruction

theorem StandsAt.of_same {p q : Processor δ} {address : Word} (h : p.StandsAt address)
    (registers : q.registers = p.registers) (nextInstruction : q.nextInstruction = p.nextInstruction) :
    q.StandsAt address where
  nextInstruction := nextInstruction.trans h.nextInstruction
  eip := by
    rw [reg, registers]
    exact h.eip

/-- A handler that cannot be entered leaves everything but the stack as it was. -/
theorem enterHandler_fault {number : Word} {p q : Processor δ} {f : Fault}
    (ran : (Execution.enterHandler number).run p = .error f q) :
    q.registers = p.registers ∧ q.nextInstruction = p.nextInstruction ∧
      q.faultLog = p.faultLog := by
  have ends : Outcome (Execution.enterHandler number) (fun _ _ => True)
      (fun _ q => q.registers = p.registers ∧ q.nextInstruction = p.nextInstruction ∧
        q.faultLog = p.faultLog) p := by
    simp [Execution.enterHandler, storeAt]
  exact ends.of_error ran

theorem Reaches.standsAt {stepping : Bool} {p q : Processor δ} (reached : p.Reaches stepping q) :
    q.StandsAt q.nextInstruction := by
  have came := delivers p.syncEip
  cases reached with
  | idle none =>
      rw [none] at came
      cases came
      exact syncEip_standsAt p
  | entered running entered =>
      rw [entered] at came
      cases came
      exact syncEip_standsAt _

variable [PortDevice δ]

/-- How a step can raise a fault, and the address at which it does. -/
inductive Raises (stepping : Bool) (p : Processor δ) : Word → Fault → Prop
  /-- the handler of a request cannot be entered -/
  | delivery {number : UInt8} {rest : List UInt8} {f : Fault} {r : Processor δ}
      (enabled : p.flags.interrupt = true) (queued : p.interruptQueue = number :: rest)
      (ran : (Execution.enterHandler (UInt32.ofNat number.toNat)).run
        (p.syncEip.requesting rest) = .error f r) :
      Raises stepping p p.nextInstruction f
  /-- there is no instruction -/
  | fetch {q : Processor δ} (reached : p.Reaches stepping q)
      (missing : q.instructionAt? q.nextInstruction = none) :
      Raises stepping p q.nextInstruction (.invalidInstructionAddress q.nextInstruction)
  /-- an instruction that is not repeated -/
  | instruction {q r : Processor δ} {i : Instruction} {f : Fault}
      (reached : p.Reaches stepping q) (found : q.instructionAt? q.nextInstruction = some i)
      (unmarked : i.op ≠ .rep)
      (ran : i.execute.run (q.jumpTo (q.nextInstruction + 4)) = .error f r) :
      Raises stepping p q.nextInstruction f
  /-- the instruction after a repeat mark; the address is that of the mark -/
  | body {q r s : Processor δ} {i : Instruction} {f : Fault}
      (reached : p.Reaches stepping q) (found : q.instructionAt? q.nextInstruction = some i)
      (mark : i.op = .rep)
      (counted : Execution.countRepetition.run (q.jumpTo (q.nextInstruction + 4)) = .ok true r)
      (ran : executeBody.run r = .error f s) :
      Raises stepping p q.nextInstruction f

theorem raises_of_executeAt {stepping : Bool} {p q r : Processor δ} {i : Instruction} {f : Fault}
    (reached : p.Reaches stepping q) (found : q.instructionAt? q.nextInstruction = some i)
    (ran : (executeAt q.nextInstruction i).run (q.jumpTo (q.nextInstruction + 4)) = .error f r) :
    p.Raises stepping q.nextInstruction f := by
  by_cases mark : i.op = .rep
  · rw [executeAt_of_mark mark] at ran
    have counts : Outcome Execution.countRepetition (fun _ _ => True) (fun _ _ => False)
        (q.jumpTo (q.nextInstruction + 4)) := by
      simp [Execution.countRepetition]
    cases counted : Execution.countRepetition.run (q.jumpTo (q.nextInstruction + 4)) with
    | error g s => exact (counts.of_error counted).elim
    | ok more s =>
        rw [counted] at ran
        cases more with
        | false => cases ran
        | true =>
            simp only at ran
            cases body : executeBody.run s with
            | ok u t =>
                rw [body] at ran
                cases ran
            | error g t =>
                rw [body] at ran
                cases ran
                exact .body reached found mark counted body
  · rw [executeAt_of_unmarked mark] at ran
    exact .instruction reached found mark ran

/-- A step that records a fault leaves execution where the fault was raised. -/
theorem step_fault {stepping : Bool} {p : Processor δ} {f : Fault}
    (recorded : (step stepping p).2.faultLog = f :: p.faultLog) :
    ∃ site, p.Raises stepping site f ∧ (step stepping p).2.StandsAt site := by
  have unrecorded {q : Processor δ} (same : q.faultLog = p.faultLog) : q.faultLog ≠ f :: p.faultLog := by
    rw [same]
    exact (List.cons_ne_self f p.faultLog).symm
  have came := steps stepping p
  generalize step stepping p = r at came recorded ⊢
  cases came with
  | refused faulted =>
      have delivered := delivers p.syncEip
      rw [faulted] at delivered
      cases delivered with
      | faulted enabled queued ran =>
          obtain ⟨registers, nextInstruction, faultLog⟩ := enterHandler_fault ran
          obtain ⟨rfl, -⟩ := List.cons.inj recorded
          exact ⟨p.nextInstruction, .delivery enabled queued ran,
            (syncEip_standsAt p).of_same registers nextInstruction⟩
  | @delivered q alone entered =>
      obtain ⟨interruptQueue, same⟩ := Reaches.surroundings_eq (.entered rfl entered)
      exact absurd recorded (unrecorded (congrArg Surroundings.faultLog same))
  | @executed q reached =>
      obtain ⟨interruptQueue, same⟩ := reached.surroundings_eq
      have sameLog : q.faultLog = p.faultLog := congrArg Surroundings.faultLog same
      have control (i : Instruction) :=
        stepsControl_executeAt q.nextInstruction i (q.jumpTo (q.nextInstruction + 4))
      have executed := executes q
      generalize stepInstruction q = r at executed recorded ⊢
      cases executed with
      | absent missing =>
          obtain ⟨rfl, -⟩ := List.cons.inj recorded
          exact ⟨q.nextInstruction, .fetch reached missing, reached.standsAt.of_same rfl rfl⟩
      -- No instruction writes the log itself, so one that succeeded did not record the fault.
      | @done i r found ran =>
          have kept : r.faultLog = p.faultLog :=
            ((control i).of_ok ran).faults_eq.2.trans sameLog
          exact absurd recorded (unrecorded kept)
      | @faulted i g r found ran =>
          obtain ⟨rfl, -⟩ := List.cons.inj recorded
          exact ⟨q.nextInstruction, raises_of_executeAt reached found ran, syncEip_standsAt _⟩

end Processor

variable [PortDevice δ]

/-- Only an `ins` leaves the completion of an `ins` to the host, and it does not jump. -/
theorem Execution.port_waits (op : PortOp) (operands : Operands) {p : Processor δ}
    (free : p.pendingTransfer = none) :
    Outcome (Execution.port op operands)
      (fun _ q => ∀ n, q.pendingTransfer = some (.inputString n) →
        (∃ w, op = .ins w) ∧ q.nextInstruction = p.nextInstruction)
      (fun _ _ => True) p := by
  cases op with
  | ins w =>
      simp [Execution.port, Execution.inputString, Processor.exchanged, Processor.suspended,
        Processor.storeAt, Processor.advance, Processor.setReg, free]
  | outs w =>
      simp [Execution.port, Execution.outputString, Processor.exchanged, Processor.suspended,
        Processor.advance, Processor.setReg, free]
  | output =>
      obtain ⟨a | a, b | b⟩ := operands <;>
        simp [Execution.port, Execution.outputFrom, Processor.exchanged, Processor.suspended, free]
  | input =>
      obtain ⟨a | a, b | b⟩ := operands
      · simp [Execution.port, free]
      · simp [Execution.port, free]
      · cases a <;> simp [Execution.port, free]
      · cases a <;> simp [Execution.port, Execution.inputTo, Processor.exchanged,
          Processor.suspended, Processor.setReg, free]

theorem Instruction.execute_waits (i : Instruction) {p q : Processor δ} {n : Nat}
    (free : p.pendingTransfer = none) (ran : i.execute.run p = .ok () q)
    (waits : q.pendingTransfer = some (.inputString n)) :
    (∃ w, i.op = .port (.ins w)) ∧ q.nextInstruction = p.nextInstruction := by
  by_cases other : ∀ op, i.op ≠ .port op
  · have kept := ((i.portable_execute other).keeps p).of_ok ran
    rw [Processor.free_of_surroundings kept free] at waits
    cases waits
  · obtain ⟨op, isPort⟩ : ∃ op, i.op = .port op := by simpa using other
    obtain ⟨_, op1, op2, position⟩ := i
    cases isPort
    obtain ⟨⟨w, isIns⟩, next⟩ := (Execution.port_waits op (op1, op2) free).of_ok ran n waits
    exact ⟨⟨w, congrArg Operator.port isIns⟩, next⟩

namespace Processor

/-- The instruction at `site` is an `ins`, or if `repeated` a mark before one. -/
inductive HasInput (p : Processor δ) (site : Word) : Bool → Prop
  | alone {i : Instruction} {w : Width} (found : p.instructionAt? site = some i)
      (ins : i.op = .port (.ins w)) : HasInput p site false
  | repeated {i body : Instruction} {w : Width} (found : p.instructionAt? site = some i)
      (mark : i.op = .rep) (following : p.instructionAt? (site + 4) = some body)
      (ins : body.op = .port (.ins w)) : HasInput p site true

/-- Only fields have changed that say neither where execution stands nor what is pending. -/
structure Touched (p q : Processor δ) : Prop where
  registers : q.registers = p.registers
  nextInstruction : q.nextInstruction = p.nextInstruction
  pendingTransfer : q.pendingTransfer = p.pendingTransfer

/-- A step ran the `ins` at `site`, which the device refused, and its completion is still to come. -/
inductive Suspended (site : Word) (repeated : Bool) : Processor δ → Prop
  | step {stepping : Bool} {p q : Processor δ} {n : Nat} (free : p.pendingTransfer = none)
      (reached : p.Reaches stepping q) (here : q.nextInstruction = site)
      (input : q.HasInput site repeated)
      (waits : (Processor.step stepping p).2.pendingTransfer = some (.inputString n)) :
      Suspended site repeated (Processor.step stepping p).2
  | touched {p q : Processor δ} : Suspended site repeated p → Touched p q →
      Suspended site repeated q

/-- The processors that come about when none is stepped while a transfer waits. -/
inductive Reachable : Processor δ → Prop
  | free {p : Processor δ} : p.pendingTransfer = none → Reachable p
  | step {p : Processor δ} (stepping : Bool) : p.pendingTransfer = none →
      Reachable (Processor.step stepping p).2
  | touched {p q : Processor δ} : Reachable p → Touched p q → Reachable q

omit [PortDevice δ] in
theorem HasInput.unique {p : Processor δ} {site : Word} {repeated repeated' : Bool}
    (h : p.HasInput site repeated) (h' : p.HasInput site repeated') : repeated = repeated' := by
  cases h with
  | alone found ins =>
      cases h' with
      | alone => rfl
      | repeated found' mark =>
          cases found.symm.trans found'
          cases ins.symm.trans mark
  | repeated found mark =>
      cases h' with
      | repeated => rfl
      | alone found' ins =>
          cases found.symm.trans found'
          cases ins.symm.trans mark

theorem executeBody_waits {p q : Processor δ} {n : Nat} (free : p.pendingTransfer = none)
    (ran : executeBody.run p = .ok () q) (waits : q.pendingTransfer = some (.inputString n)) :
    ∃ body w, p.instructionAt? p.nextInstruction = some body ∧ body.op = .port (.ins w) := by
  cases found : p.instructionAt? p.nextInstruction with
  | none =>
      rw [executeBody_of_missing found] at ran
      cases ran
  | some body =>
      rw [executeBody_of_found found] at ran
      obtain ⟨⟨w, ins⟩, -⟩ := body.execute_waits free ran waits
      exact ⟨body, w, rfl, ins⟩

omit [PortDevice δ] in
/-- Counting a repetition leaves the instructions where they are. -/
theorem countRepetition_place {p q : Processor δ} {more : Bool}
    (counted : Execution.countRepetition.run p = .ok more q) :
    q.nextInstruction = p.nextInstruction ∧ q.pendingTransfer = p.pendingTransfer ∧
      ∀ address, q.instructionAt? address = p.instructionAt? address := by
  have counts : Outcome Execution.countRepetition
      (fun _ q => q.nextInstruction = p.nextInstruction ∧ q.pendingTransfer = p.pendingTransfer ∧
        ∀ address, q.instructionAt? address = p.instructionAt? address) (fun _ _ => True) p := by
    simp [Execution.countRepetition, setReg, instructionAt?, limit]
  exact counts.of_ok counted

theorem executeAt_waits {q r : Processor δ} {i : Instruction} {n : Nat}
    (free : q.pendingTransfer = none) (found : q.instructionAt? q.nextInstruction = some i)
    (ran : (executeAt q.nextInstruction i).run (q.jumpTo (q.nextInstruction + 4)) = .ok () r)
    (waits : r.pendingTransfer = some (.inputString n)) :
    ∃ repeated, q.HasInput q.nextInstruction repeated ∧
      r.nextInstruction = if repeated then q.nextInstruction else q.nextInstruction + 4 := by
  by_cases mark : i.op = .rep
  · rw [executeAt_of_mark mark] at ran
    cases counted : Execution.countRepetition.run (q.jumpTo (q.nextInstruction + 4)) with
    | error f s =>
        rw [counted] at ran
        cases ran
    | ok more s =>
        obtain ⟨next, pending, places⟩ := countRepetition_place counted
        have free' : s.pendingTransfer = none := pending.trans free
        rw [counted] at ran
        cases more with
        | false =>
            cases ran
            rw [jumpTo, free'] at waits
            cases waits
        | true =>
            simp only at ran
            cases bodyRan : executeBody.run s with
            | error f t =>
                rw [bodyRan] at ran
                cases ran
            | ok u t =>
                rw [bodyRan] at ran
                cases ran
                obtain ⟨body, w, following, ins⟩ := executeBody_waits free' bodyRan waits
                rw [next, places] at following
                exact ⟨true, .repeated found mark following ins, rfl⟩
  · rw [executeAt_of_unmarked mark] at ran
    obtain ⟨⟨w, ins⟩, next⟩ :=
      i.execute_waits (p := q.jumpTo (q.nextInstruction + 4)) free ran waits
    exact ⟨false, .alone found ins, next⟩

theorem stepInstruction_waits {p : Processor δ} {n : Nat} (free : p.pendingTransfer = none)
    (waits : (stepInstruction p).2.pendingTransfer = some (.inputString n)) :
    ∃ repeated, p.HasInput p.nextInstruction repeated ∧
      (stepInstruction p).2.StandsAt
        (if repeated then p.nextInstruction else p.nextInstruction + 4) := by
  have came := executes p
  generalize stepInstruction p = r at came waits ⊢
  cases came with
  | absent missing =>
      rw [recordFault, free] at waits
      cases waits
  | @done i q found ran =>
      obtain ⟨repeated, input, next⟩ := executeAt_waits free found ran waits
      refine ⟨repeated, input, ?_⟩
      rw [← next]
      exact syncEip_standsAt q
  | @faulted i f q found ran =>
      have control := (stepsControl_executeAt p.nextInstruction i _).of_error ran
      have free' : q.pendingTransfer = none :=
        (congrArg Control.pendingTransfer control).trans free
      have waits' : q.pendingTransfer = some (.inputString n) := waits
      rw [free'] at waits'
      cases waits'

theorem Reaches.step_eq {stepping : Bool} {p q : Processor δ} (reached : p.Reaches stepping q) :
    step stepping p = stepInstruction q := by
  cases reached with
  | idle none => rw [step, none]
  | entered running entered =>
      rw [step, entered, running]
      rfl

omit [PortDevice δ] in
theorem Reaches.free {stepping : Bool} {p q : Processor δ} (reached : p.Reaches stepping q)
    (free : p.pendingTransfer = none) : q.pendingTransfer = none := by
  obtain ⟨interruptQueue, same⟩ := reached.surroundings_eq
  exact (congrArg Surroundings.pendingTransfer same).trans free

theorem Suspended.standsAt {site : Word} {repeated : Bool} {p : Processor δ}
    (h : p.Suspended site repeated) : p.StandsAt (if repeated then site else site + 4) := by
  induction h with
  | step free reached here input waits =>
      rw [reached.step_eq] at waits ⊢
      obtain ⟨repeated', input', stands⟩ := stepInstruction_waits (reached.free free) waits
      -- Whether the `ins` is repeated can be read off the program, so both answers agree.
      rw [here] at input' stands
      rwa [input.unique input']
  | touched _ touched ih => exact ih.of_same touched.registers touched.nextInstruction

theorem step_suspended {stepping : Bool} {p : Processor δ} {n : Nat}
    (free : p.pendingTransfer = none)
    (waits : (step stepping p).2.pendingTransfer = some (.inputString n)) :
    ∃ site repeated, (step stepping p).2.Suspended site repeated := by
  have delivered : (deliver p.syncEip).state.pendingTransfer = none :=
    (pendingTransfer_deliver p.syncEip).trans free
  have came := steps stepping p
  generalize step stepping p = r at came waits ⊢
  cases came with
  | refused faulted =>
      rw [faulted] at delivered
      cases delivered.symm.trans waits
  | delivered alone entered =>
      rw [entered] at delivered
      cases delivered.symm.trans waits
  | @executed q reached =>
      obtain ⟨repeated, input, -⟩ := stepInstruction_waits (reached.free free) waits
      rw [← reached.step_eq] at waits ⊢
      exact ⟨q.nextInstruction, repeated, .step free reached rfl input waits⟩

theorem Reachable.suspended {p : Processor δ} (h : p.Reachable) {n : Nat}
    (waits : p.pendingTransfer = some (.inputString n)) :
    ∃ site repeated, p.Suspended site repeated := by
  induction h with
  | free free =>
      rw [free] at waits
      cases waits
  | step stepping free => exact step_suspended free waits
  | touched _ touched ih =>
      rw [touched.pendingTransfer] at waits
      obtain ⟨site, repeated, suspended⟩ := ih waits
      exact ⟨site, repeated, suspended.touched touched⟩

omit [PortDevice δ] in
theorem complete_fault {value : Word} {t : PendingTransfer} {p q : Processor δ} {f : Fault}
    (ran : (Execution.complete value t).run p = .error f q) : q = p ∧ ∃ n, t = .inputString n := by
  have ends : Outcome (Execution.complete value t) (fun _ _ => True)
      (fun _ q => q = p ∧ ∃ n, t = .inputString n) p := by
    cases t with
    | input target size | inputString size => simp [Execution.complete]
    | output pointer size => cases pointer <;> simp [Execution.complete]
  exact ends.of_error ran

omit [PortDevice δ] in
/-- Only the store of an `ins` can fault when its transfer is completed, and then nothing moves. -/
theorem resumeTransfer_fault {p : Processor δ} {f : Fault} (faulted : p.resumeTransfer.1 = .error f) :
    (∃ n, p.pendingTransfer = some (.inputString n)) ∧
      p.resumeTransfer.2 = p.released.recordFault f := by
  cases pending : p.pendingTransfer with
  | none =>
      rw [resumeTransfer, pending] at faulted
      cases faulted
  | some t =>
      cases ran : (Execution.complete p.buffer t).run p.released with
      | ok u q =>
          rw [resumeTransfer_of_ok pending ran] at faulted
          cases faulted
      | error g q =>
          obtain ⟨rfl, n, rfl⟩ := complete_fault ran
          rw [resumeTransfer_of_error pending ran] at faulted ⊢
          cases faulted
          exact ⟨⟨n, rfl⟩, rfl⟩

/-- Where a fault leaves execution. A step leaves it on the instruction that raised the fault. The
completion of an `ins` leaves it on the instruction only if a repeat mark keeps it there, and
otherwise on the one after it. -/
theorem fault_standsAt {p : Processor δ} (reachable : p.Reachable) :
    (∀ stepping f, (step stepping p).2.faultLog = f :: p.faultLog →
      ∃ site, p.Raises stepping site f ∧ (step stepping p).2.StandsAt site) ∧
    (∀ f, p.resumeTransfer.1 = .error f →
      ∃ site repeated, p.Suspended site repeated ∧
        p.resumeTransfer.2.StandsAt (if repeated then site else site + 4)) := by
  refine ⟨fun stepping f recorded => step_fault recorded, fun f faulted => ?_⟩
  obtain ⟨⟨n, waits⟩, left⟩ := resumeTransfer_fault faulted
  obtain ⟨site, repeated, suspended⟩ := reachable.suspended waits
  rw [left]
  exact ⟨site, repeated, suspended, suspended.standsAt.of_same rfl rfl⟩

/-- A store of `insb` at address 0, made by the host, leaves execution after the `insb`. -/
theorem fault_standsAt_ins :
    let fresh : Processor Script := (Processor.new 16 {} default).load #[{ op := .port (.ins .byte) }]
    let p := (step false fresh).2
    p.Reachable ∧ fresh.nextInstruction = 1040 ∧ p.resumeTransfer.2.nextInstruction = 1044 ∧
      ∃ f site repeated, p.resumeTransfer.1 = .error f ∧ p.Suspended site repeated ∧
        p.resumeTransfer.2.StandsAt (if repeated then site else site + 4) := by
  intro fresh p
  have reachable : p.Reachable := .step false rfl
  have faulted : p.resumeTransfer.1.isOk = false := by decide +kernel
  refine ⟨reachable, by decide +kernel, by decide +kernel, ?_⟩
  cases result : p.resumeTransfer.1 with
  | ok done =>
      rw [result] at faulted
      cases faulted
  | error f =>
      obtain ⟨site, repeated, suspended, stands⟩ := (fault_standsAt reachable).2 f result
      exact ⟨f, site, repeated, rfl, suspended, stands⟩

end Processor

end ReducedX86
