import ReducedX86.Device.Script
import ReducedX86.Proofs.Memory
import ReducedX86.Proofs.Processor.Transfer
import ReducedX86.Proofs.Word

/-!
Entering a handler and returning from it.

A handler is entered for a request of the host or by an `int`. Both leave the same frame on the
stack and go to the address in the handler table; only a request disables interrupts as well.
`iret` undoes an entry as long as it finds the frame, whatever else has happened in between.
-/
namespace ReducedX86

-- Two processors are compared field by field; what stores make of memory need not be looked into.
attribute [local irreducible] RegisterFile.set Memory.store

variable {δ : Type}

namespace Processor

/-- What entering the handler of a number from `p` leaves in `q`: flags and return address on the
stack, and execution at the address that the table had for the number. -/
structure HasFrame (p : Processor δ) (number back : Word) (q : Processor δ) : Prop where
  flags : q.memory.read (p.reg .esp - 4) 4 = .ok p.flags.pack
  back : q.memory.read (p.reg .esp - 8) 4 = .ok back
  esp : q.reg .esp = p.reg .esp - 8
  handler : p.memory.read (p.handlerTable + 4 * number) 4 = .ok q.nextInstruction

/-- The processor with flags and return address on the stack, and execution at a handler. -/
def withFrame (p : Processor δ) (handler : Word) : Processor δ :=
  let top := p.reg .esp
  (((p.storeAt (top - 4) p.flags.pack 4).storeAt (top - 8) p.nextInstruction 4).setReg .esp
    (top - 8)).jumpTo handler

/-- An entry reads the table and has room for the frame, of which it leaves the words. -/
theorem enterHandler_ok {number : Word} {p q : Processor δ}
    (ran : (Execution.enterHandler number).run p = .ok () q) :
    p.memory.readFault? (p.handlerTable + number * 4) 4 = none ∧
      p.memory.readFault? (p.reg .esp - 4) 4 = none ∧
      p.memory.readFault? (p.reg .esp - 8) 4 = none ∧
      q = p.withFrame (p.memory.load (p.handlerTable + number * 4) 4) := by
  have ends : Outcome (Execution.enterHandler number)
      (fun _ q => p.memory.readFault? (p.handlerTable + number * 4) 4 = none ∧
        p.memory.readFault? (p.reg .esp - 4) 4 = none ∧
        p.memory.readFault? (p.reg .esp - 8) 4 = none ∧
        q = p.withFrame (p.memory.load (p.handlerTable + number * 4) 4)) (fun _ _ => True) p := by
    simp only [Execution.enterHandler, outcome_bind, outcome_get, Execution.outcome_readMemory,
      Execution.outcome_reg, Execution.outcome_writeMemory, outcome_discard,
      Execution.outcome_setReg, Execution.outcome_jump]
    refine ⟨fun _ _ => trivial, fun found => ⟨fun _ _ => trivial, fun first =>
      ⟨fun _ _ => trivial, fun second => ?_⟩⟩⟩
    rw [Memory.writeFault?_eq_none_iff] at first second
    exact ⟨found, first, by rwa [storeAt, Memory.readFault?_store] at second, rfl⟩
  exact ends.of_ok ran

theorem memory_withFrame (p : Processor δ) (handler : Word) :
    (p.withFrame handler).memory =
      (p.memory.store (p.reg .esp - 4) p.flags.pack 4).store (p.reg .esp - 8)
        p.nextInstruction 4 := rfl

/-- An entry leaves its frame. The handler is looked up before the frame is written, so the frame
may lie in the table. -/
theorem hasFrame_of_enterHandler {number : Word} {p q : Processor δ}
    (ran : (Execution.enterHandler number).run p = .ok () q) :
    p.HasFrame number p.nextInstruction q := by
  obtain ⟨found, first, second, rfl⟩ := enterHandler_ok ran
  have firstInside := (Memory.readFault?_eq_none_iff.mp first).1
  have secondInside := (Memory.readFault?_eq_none_iff.mp second).1
  have next : p.reg .esp - 4 = p.reg .esp - 8 + 4 := by grind
  have apart : (p.reg .esp - 8).toNat + 4 ≤ (p.reg .esp - 4).toNat := by
    have low := (Memory.inRange_iff.mp firstInside).1
    have above : (4 : Word).toNat ≤ (p.reg .esp - 8 + 4).toNat :=
      Nat.le_trans (by decide) (next ▸ low)
    rw [next, Word.toNat_add_of_le above]
    exact Nat.le_refl _
  have secondReadable : (p.memory.store (p.reg .esp - 4) p.flags.pack 4).readFault?
      (p.reg .esp - 8) 4 = none := (Memory.readFault?_store ..).trans second
  constructor
  · rw [Memory.read_eq_ok_iff, memory_withFrame, Memory.readFault?_store, Memory.readFault?_store,
      Memory.load_store_of_apart _ ((Memory.inRange_store ..).trans secondInside)
        ((Memory.inRange_store ..).trans firstInside) (.inl apart),
      Memory.load_store first, Word.truncate_four]
    exact ⟨first, rfl⟩
  · rw [Memory.read_eq_ok_iff, memory_withFrame, Memory.readFault?_store,
      Memory.load_store secondReadable, Word.truncate_four]
    exact ⟨secondReadable, rfl⟩
  · exact RegisterFile.get_set_whole _ rfl _
  · rw [Memory.read_eq_ok_iff, UInt32.mul_comm]
    exact ⟨found, rfl⟩

theorem flags_of_enterHandler {number : Word} {p q : Processor δ}
    (ran : (Execution.enterHandler number).run p = .ok () q) : q.flags = p.flags := by
  rw [(enterHandler_ok ran).2.2.2]
  rfl

/-- How a handler comes to be entered: the host has requested it, or the program raises it. -/
inductive Origin
  | requested
  | raised
  deriving DecidableEq, Repr

/-- The flags in a handler that was entered with flags `f`. -/
def Origin.flagsInside (o : Origin) (f : Flags) : Flags :=
  match o with
  | requested => { f with interrupt := false }
  | raised => f

variable [PortDevice δ]

/-- From `p` the handler of a number is entered, to return to `back`, and the processor in it
is `q`. -/
inductive Enters (p : Processor δ) : Origin → Word → Word → Processor δ → Prop
  /-- a step delivers the next request -/
  | requested {number : UInt8} {rest : List UInt8} {q : Processor δ}
      (queued : p.interruptQueue = number :: rest) (entered : deliver p.syncEip = .entered q) :
      Enters p .requested (UInt32.ofNat number.toNat) p.nextInstruction q
  /-- the next instruction is an `int` other than the breakpoint -/
  | raised {i : Instruction} {o : Operand} {q : Processor δ}
      (found : p.instructionAt? p.nextInstruction = some i) (int : i.op = .control .int)
      (operand : i.op1 = some o) (other : p.valueOf o ≠ 3)
      (ran : (executeAt p.nextInstruction i).run (p.jumpTo (p.nextInstruction + 4)) = .ok () q) :
      Enters p .raised (p.valueOf o) (p.nextInstruction + 4) q.syncEip

theorem enterHandler_of_int {i : Instruction} {o : Operand} {p q : Processor δ}
    (int : i.op = .control .int) (operand : i.op1 = some o) (other : p.valueOf o ≠ 3)
    (ran : i.execute.run p = .ok () q) :
    (Execution.enterHandler (p.valueOf o)).run p = .ok () q := by
  have ends : Outcome i.execute
      (fun _ q => (Execution.enterHandler (p.valueOf o)).run p = .ok () q) (fun _ _ => True) p := by
    simp only [Instruction.execute, Operator.execute, int, operand, Execution.control,
      Execution.interrupt, outcome_bind, Execution.outcome_read, if_neg other]
    refine ⟨fun _ _ => trivial, fun _ => ?_⟩
    exact (Outcome.of_run _ p).mono (fun _ _ same => same) (fun _ _ _ => trivial)
  exact ends.of_ok ran

/-- However a handler is entered, there is a processor like `p` from which it is, and the frame is
the same; only a request changes the flags then. -/
theorem Enters.hasFrame {p q : Processor δ} {origin : Origin} {number back : Word}
    (entered : p.Enters origin number back q) :
    p.HasFrame number back q ∧ q.flags = origin.flagsInside p.flags := by
  cases entered with
  | @requested number' rest q queued entered =>
      have came := delivers p.syncEip
      rw [entered] at came
      cases came with
      | @entered number rest q enabled queued' ran =>
          obtain ⟨rfl, rfl⟩ := List.cons.inj (queued.symm.trans queued')
          have esp : (p.syncEip.requesting rest).reg .esp = p.reg .esp :=
            reg_syncEip (by decide) p
          obtain ⟨flags, back, top, handler⟩ := hasFrame_of_enterHandler ran
          rw [esp] at flags back top
          refine ⟨⟨flags, back, ?_, handler⟩, ?_⟩
          · rw [inHandler, reg_syncEip (by decide)]
            exact top
          · change { q.flags with interrupt := false } = { p.flags with interrupt := false }
            rw [flags_of_enterHandler ran]
            rfl
  | @raised i o q found int operand other ran =>
      rw [executeAt_of_unmarked (by rw [int]; decide)] at ran
      generalize p.nextInstruction + 4 = back at ran ⊢
      have value : (p.jumpTo back).valueOf o = p.valueOf o := by cases o <;> rfl
      rw [← value] at other ⊢
      have ran := enterHandler_of_int int operand other ran
      obtain ⟨flags, back, top, handler⟩ := hasFrame_of_enterHandler ran
      have kept := flags_of_enterHandler ran
      refine ⟨⟨flags, back, ?_, handler⟩, kept⟩
      rw [reg_syncEip (by decide)]
      exact top

/-- Whoever enters a handler leaves the flags and the return address below the stack and goes to the
address in the table. Interrupts are disabled in the handler of a request; an `int` leaves them
enabled if they were. -/
theorem handler_entry {p q : Processor δ} {origin : Origin} {number back : Word}
    (entered : p.Enters origin number back q) :
    p.HasFrame number back q ∧
      (q.flags.interrupt = false ↔ origin = .requested ∨ p.flags.interrupt = false) := by
  obtain ⟨frame, flags⟩ := entered.hasFrame
  refine ⟨frame, ?_⟩
  rw [flags]
  cases origin <;> simp [Origin.flagsInside]

/-- The handler of `int 32` runs with interrupts enabled, if they were enabled before. -/
theorem handler_entry_int :
    let fresh : Processor Script :=
      (Processor.new 64 {} default).load #[{ op := .control .int, op1 := some (.immediate 32 0) }]
    let p := { fresh with handlerTable := 896, flags := { interrupt := true } }
    ∃ q, p.Enters .raised 32 1092 q ∧ p.HasFrame 32 1092 q ∧ q.flags.interrupt = true := by
  intro fresh p
  let i : Instruction := { op := .control .int, op1 := some (.immediate 32 0) }
  have found : p.instructionAt? p.nextInstruction = some i := by decide +kernel
  have succeeds : (match (executeAt p.nextInstruction i).run (p.jumpTo (p.nextInstruction + 4)) with
      | .ok _ _ => true
      | .error _ _ => false) = true := by decide +kernel
  cases ran : (executeAt p.nextInstruction i).run (p.jumpTo (p.nextInstruction + 4)) with
  | error f q =>
      rw [ran] at succeeds
      cases succeeds
  | ok u q =>
      have entered : p.Enters .raised 32 1092 q.syncEip :=
        .raised (o := .immediate 32 0) found rfl rfl (by decide) ran
      obtain ⟨frame, interrupts⟩ := handler_entry entered
      exact ⟨q.syncEip, entered, frame, by simpa using interrupts⟩

/-! The way back -/

/-- `p` stands on the repeat mark at `mark`, which has run its body and goes on to count. -/
def BetweenRepetitions (p : Processor δ) (mark : Word) : Prop :=
  ∃ (before : Processor δ) (i : Instruction), before.nextInstruction = mark ∧
    before.instructionAt? mark = some i ∧ i.op = .rep ∧ before.reg .ecx ≠ 0 ∧
    p.nextInstruction = (stepInstruction before).2.nextInstruction

theorem executeAt_rep_stays {address : Word} {i : Instruction} {p : Processor δ}
    (mark : i.op = .rep) (counting : p.reg .ecx ≠ 0) :
    Outcome (executeAt address i) (fun _ q => q.nextInstruction = address) (fun _ _ => True) p := by
  rw [outcome_executeAt_rep mark]
  simp only [Execution.countRepetition, outcome_bind, Execution.outcome_reg, if_neg counting,
    outcome_discard, Execution.outcome_setReg, outcome_pure, if_true]
  exact (Outcome.of_run executeBody _).mono (fun _ _ _ => rfl) (fun _ _ _ => trivial)

theorem BetweenRepetitions.nextInstruction_eq {p : Processor δ} {mark : Word}
    (between : p.BetweenRepetitions mark) : p.nextInstruction = mark := by
  obtain ⟨before, i, rfl, found, repeats, counting, same⟩ := between
  rw [same]
  have came := executes before
  generalize stepInstruction before = r at came ⊢
  cases came with
  | absent missing => rw [missing] at found; cases found
  | @done i' q found' ran =>
      cases found.symm.trans found'
      have counting' : (before.jumpTo (before.nextInstruction + 4)).reg .ecx ≠ 0 := counting
      have back := (executeAt_rep_stays repeats counting').of_ok ran
      exact back
  | faulted => rfl

omit [PortDevice δ]

/-- With a frame on the stack, `iret` goes back and takes the flags from it. -/
theorem interruptReturn_run {p : Processor δ} {back packed : Word}
    (first : p.memory.read (p.reg .esp) 4 = .ok back)
    (second : p.memory.read (p.reg .esp + 4) 4 = .ok packed) :
    Execution.interruptReturn.run p =
      .ok () (((p.setReg .esp (p.reg .esp + 8)).withFlags (Flags.unpack packed)).jumpTo back) := by
  obtain ⟨readable, rfl⟩ := Memory.read_eq_ok_iff.mp first
  obtain ⟨readable', rfl⟩ := Memory.read_eq_ok_iff.mp second
  apply Outcome.run_eq_ok
  simp [Execution.interruptReturn, readable, readable']

/-- While the eight bytes on the stack are those that the entry wrote, they hold the return address
and the flags. -/
theorem HasFrame.reads {p q : Processor δ} {number back : Word} (frame : p.HasFrame number back q)
    {m : Memory} (same : m.slice? (q.reg .esp) 8 = q.memory.slice? (q.reg .esp) 8) :
    m.read (q.reg .esp) 4 = .ok back ∧ m.read (q.reg .esp + 4) 4 = .ok p.flags.pack := by
  obtain ⟨flags, back, lowered, -⟩ := frame
  have next : p.reg .esp - 4 = q.reg .esp + 4 := by grind
  rw [next] at flags
  rw [← lowered] at back
  generalize q.reg .esp = top at same flags back ⊢
  have first := (Memory.readFault?_eq_none_iff.mp (Memory.read_eq_ok_iff.mp back).1).1
  have second := (Memory.readFault?_eq_none_iff.mp (Memory.read_eq_ok_iff.mp flags).1).1
  rw [Memory.inRange_iff] at first second
  have above : (top + 4).toNat = top.toNat + 4 :=
    Word.toNat_add_of_le (Nat.le_trans (by decide) second.1)
  have whole : q.memory.inRange top 8 := Memory.inRange_iff.mpr (by omega)
  exact ⟨Memory.read_of_slice? same (by omega) (by omega) whole back,
    Memory.read_of_slice? same (by omega) (by omega) whole flags⟩

variable [PortDevice δ]

/-- A return undoes an entry. Whatever has happened since, if the stack is where the entry left it
and its eight bytes are those of the frame, `iret` brings back the flags and `esp` of before the entry,
leaves all else alone, and goes on with the instruction that would have run: the one after the
`int`, or the one that a request interrupted, which is the repeat mark if it came between two
repetitions. -/
theorem interruptReturn_undoes {p q r : Processor δ} {origin : Origin} {number back : Word}
    {i : Instruction} (entered : p.Enters origin number back q) (isReturn : i.op = .control .iret)
    (top : r.reg .esp = q.reg .esp)
    (frame : r.memory.slice? (q.reg .esp) 8 = q.memory.slice? (q.reg .esp) 8) :
    (∃ s, i.execute.run r = .ok () s ∧ s.nextInstruction = back ∧ s.flags = p.flags ∧
      s.reg .esp = p.reg .esp ∧ (∀ x, x ≠ .esp → x ≠ .sp → s.reg x = r.reg x) ∧
      s.memory = r.memory) ∧
    (origin = .raised → back = p.nextInstruction + 4) ∧
    (origin = .requested → back = p.nextInstruction ∧
      ∀ mark, p.BetweenRepetitions mark → back = mark) := by
  refine ⟨?_, ?_, ?_⟩
  · obtain ⟨first, second⟩ := entered.hasFrame.1.reads frame
    rw [← top] at first second
    have run : i.execute.run r = Execution.interruptReturn.run r := by
      rw [Instruction.execute, isReturn]
      rfl
    refine ⟨_, run.trans (interruptReturn_run first second), rfl, Flags.unpack_pack _, ?_, ?_, rfl⟩
    · have raised : r.reg .esp + 8 = p.reg .esp := by
        rw [top, entered.hasFrame.1.esp]
        grind
      exact ((RegisterFile.get_set_self _ .esp _).trans (Word.truncate_four _)).trans raised
    · intro x whole half
      exact reg_setReg_of_apart (Register.apart_esp whole half) r _
  · rintro rfl
    cases entered
    rfl
  · rintro rfl
    cases entered with
    | requested => exact ⟨rfl, fun mark between => between.nextInstruction_eq⟩

/-- A request is taken, the handler changes `eax` and the flags, and `iret` goes back with the flags of
before. -/
theorem interruptReturn_undoes_request :
    let fresh : Processor Script := Processor.new 64 {} default
    let p := { fresh with
      handlerTable := 896, flags := { interrupt := true }, interruptQueue := [32] }
    ∃ q, p.Enters .requested 32 1088 q ∧
      ∃ s, ({ op := .control .iret } : Instruction).execute.run
          ((q.setReg .eax 7).withFlags { zero := true }) = .ok () s ∧
        s.nextInstruction = p.nextInstruction ∧ s.flags = { interrupt := true } ∧
        s.reg .esp = p.reg .esp := by
  intro fresh p
  have taken : (match deliver p.syncEip with
      | .entered _ => true
      | .none _ | .faulted _ => false) = true := by decide +kernel
  cases came : deliver p.syncEip with
  | entered q =>
      have entered : p.Enters .requested 32 1088 q := .requested (by rfl : p.interruptQueue = [32]) came
      obtain ⟨⟨s, ran, next, flags, top, -⟩, -, -⟩ := interruptReturn_undoes
        (r := (q.setReg .eax 7).withFlags { zero := true }) (i := { op := .control .iret })
        entered rfl (reg_setReg_of_apart (by decide) q _) rfl
      exact ⟨q, entered, s, ran, next, flags, top⟩
  | none q | faulted q =>
      rw [came] at taken
      cases taken

end Processor

end ReducedX86
