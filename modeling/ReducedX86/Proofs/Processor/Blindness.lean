import ReducedX86.Proofs.Device.Board
import ReducedX86.Proofs.Processor.Transfer

/-!
What a program cannot tell.

On a board with the default device, a program that neither reads the clock port nor draws a random
number sees nothing of the time that was last read, of the random numbers to come, or of what the
exchange buffer held. Two processors that differ in these only make the same steps.
-/
namespace ReducedX86

-- Two processors are compared field by field; what is in the registers need not be looked into.
attribute [local irreducible] RegisterFile.set

namespace Processor

/-- Another exchange buffer, other random numbers, another time in the clock port. -/
def mask (buffer : Word) (draws : Feed Word) (time : Nat) : Disguise Board Board :=
  fun s _ => ({ s with buffer, device := s.device.withClock time }, draws)

/-- The processors differ in nothing else. -/
def Resembles (p q : Processor Board) : Prop :=
  ∃ buffer draws time, q = p.disguised (mask buffer draws time)

theorem faithful_mask (buffer : Word) (draws : Feed Word) (time : Nat) :
    Faithful (mask buffer draws time) :=
  ⟨fun _ => rfl, fun _ _ => rfl, fun _ _ => rfl⟩

theorem disguised_mask (p : Processor Board) (buffer : Word) (draws : Feed Word) (time : Nat) :
    p.disguised (mask buffer draws time) =
      { p with buffer, draws, device := p.device.withClock time } := rfl

theorem Resembles.refl (p : Processor Board) : p.Resembles p := by
  obtain ⟨time, same⟩ := p.device.exists_withClock
  refine ⟨p.buffer, p.draws, time, ?_⟩
  rw [disguised_mask, ← same]

variable {p q : Processor Board}

theorem Resembles.jumpTo (like : p.Resembles q) (address : Word) :
    (p.jumpTo address).Resembles (q.jumpTo address) := by
  obtain ⟨buffer, draws, time, rfl⟩ := like
  exact ⟨buffer, draws, time, rfl⟩

theorem Resembles.syncEip (like : p.Resembles q) : p.syncEip.Resembles q.syncEip := by
  obtain ⟨buffer, draws, time, rfl⟩ := like
  exact ⟨buffer, draws, time, disguised_syncEip p _⟩

theorem Resembles.recordFault (like : p.Resembles q) (f : Fault) :
    (p.recordFault f).Resembles (q.recordFault f) := by
  obtain ⟨buffer, draws, time, rfl⟩ := like
  exact ⟨buffer, draws, time, rfl⟩

theorem Resembles.rewound (like : p.Resembles q) (f : Fault) (address : Word) :
    (p.rewound f address).Resembles (q.rewound f address) :=
  ((like.recordFault f).jumpTo address).syncEip

/-- An exchange with the device makes the buffers equal. -/
theorem exchanged_resembles (p : Processor Board) (buffer value : Word) (draws : Feed Word)
    (time : Nat) (device : Board) :
    (p.exchanged value device).Resembles
      ((p.disguised (mask buffer draws time)).exchanged value (device.withClock time)) :=
  ⟨value, draws, time, rfl⟩

end Processor

namespace Execution

variable {α : Type} {p q : Processor Board}

theorem Unaware.agree {x : Execution Board α} (unaware : Unaware x x) (like : p.Resembles q) :
    Agree Processor.Resembles x x p q := by
  obtain ⟨buffer, draws, time, rfl⟩ := like
  cases ran : x.run p with
  | ok a p' => exact .done ran ((unaware _).run_ok ran) ⟨buffer, draws, time, rfl⟩
  | error f p' => exact .failed ran ((unaware _).run_error ran) ⟨buffer, draws, time, rfl⟩

theorem receive_agree {port : Word} (past : Board.intervalPort ≤ port.toNat) (size : Nat)
    (t : PendingTransfer) (like : p.Resembles q) :
    Agree Processor.Resembles (receive port size t) (receive port size t) p q := by
  obtain ⟨buffer, draws, time, rfl⟩ := like
  have answer : p.inputFrom port size =
    (true, (p.device.input p.now.wall port).1, (p.device.input p.now.wall port).2) := rfl
  have answer' : (p.disguised (Processor.mask buffer draws time)).inputFrom port size =
      (true, (p.device.input p.now.wall port).1, (p.device.input p.now.wall port).2.withClock time) := by
    change (true, (p.device.withClock time).input p.now.wall port) = _
    rw [Board.input_withClock _ _ _ past]
  have completed := (unaware_complete (p.device.input p.now.wall port).1 t).agree
    (p.exchanged_resembles buffer (p.device.input p.now.wall port).1 draws time
      (p.device.input p.now.wall port).2)
  exact completed.of_runs (receive_run p port size t answer) (receive_run _ port size t answer')

theorem send_agree (port value : Word) (size : Nat) (pointer : Option Register)
    (like : p.Resembles q) :
    Agree Processor.Resembles (send port value size pointer) (send port value size pointer) p q := by
  obtain ⟨buffer, draws, time, rfl⟩ := like
  have answer : p.outputTo port value size =
      (true, p.device.output p.now.instant port size value) := rfl
  have answer' : (p.disguised (Processor.mask buffer draws time)).outputTo port value size =
      (true, (p.device.output p.now.instant port size value).withClock time) := by
    change (true, (p.device.withClock time).output p.now.instant port size value) = _
    rw [Board.output_withClock]
  have completed := (unaware_complete value (.output pointer size)).agree
    (p.exchanged_resembles buffer value draws time
      (p.device.output p.now.instant port size value))
  exact completed.of_runs (send_run p port size value pointer answer)
    (send_run _ port size value pointer answer')

end Execution

/-! Instructions that see nothing of it -/

/-- The port at which a transfer asks for input. -/
def Processor.inputPort? {δ : Type} (p : Processor δ) (op : PortOp) : Operands → Option Word :=
  fun operands =>
    match op, operands with
    | .input, (some (.register _), some port) => some (p.valueOf port)
    | .ins _, _ => some (p.reg .dx)
    | _, _ => none

/-- The instruction neither draws a random number nor reads the clock port. -/
structure Instruction.Blind (i : Instruction) (p : Processor Board) : Prop where
  drawless : i.op ≠ .system .rdrand
  past {op : PortOp} (transfers : i.op = .port op) :
    ∀ port ∈ p.inputPort? op (i.op1, i.op2), Board.intervalPort ≤ port.toNat

namespace Execution

variable {p q : Processor Board}

theorem read_run_ok {δ : Type} {p p' : Processor δ} {o : Operand} {value : Word}
    (ran : (read o).run p = .ok value p') : value = p.valueOf o := by
  have reads : Outcome (read o) (fun value _ => value = p.valueOf o) (fun _ _ => True) p := by
    rw [outcome_read]
    exact ⟨fun _ _ => trivial, fun _ => rfl⟩
  exact reads.of_ok ran

theorem port_agree (op : PortOp) (operands : Operands)
    (past : ∀ port ∈ p.inputPort? op operands, Board.intervalPort ≤ port.toNat)
    (like : p.Resembles q) :
    Agree Processor.Resembles (port op operands) (port op operands) p q := by
  unfold port
  split
  · rename_i target source
    apply ((unaware_read source).agree like).bind
    intro number p' q' asked like
    cases read_run_ok asked
    exact receive_agree (past _ rfl) _ _ like
  · rename_i target source
    apply ((unaware_read target).agree like).bind
    intro number p' q' _ like
    apply ((unaware_read source).agree like).bind
    intro value p' q' _ like
    exact send_agree number value _ _ like
  · apply ((unaware_reg .dx).agree like).bind
    intro number p' q' asked like
    cases asked
    exact receive_agree (past _ rfl) _ _ like
  · apply ((unaware_reg .esi).agree like).bind
    intro start p' q' _ like
    apply ((unaware_readMemory start _).agree like).bind
    intro value p' q' _ like
    apply ((unaware_reg .dx).agree like).bind
    intro number p' q' _ like
    exact send_agree number value _ _ like
  · exact (unaware_pure ()).agree like

end Execution

namespace Instruction

theorem agree_execute {p q : Processor Board} {i : Instruction} (blind : i.Blind p)
    (like : p.Resembles q) :
    Agree Processor.Resembles (i.execute (δ := Board)) i.execute p q := by
  by_cases other : ∀ op, i.op ≠ .port op
  · exact (i.unaware_execute other blind.drawless).agree like
  · obtain ⟨op, transfers⟩ : ∃ op, i.op = .port op := by simpa using other
    have past := blind.past transfers
    obtain ⟨_, op1, op2, position⟩ := i
    cases transfers
    exact Execution.port_agree op (op1, op2) past like

end Instruction

/-! Blind steps -/

namespace Processor

variable {δ : Type} [PortDevice δ]

/-- The step from `p` executes an instruction, or the one after a repeat mark, and does so from `q`. -/
inductive Runs (stepping : Bool) (p : Processor δ) : Instruction → Processor δ → Prop
  | next {r : Processor δ} {i : Instruction} (reached : p.Reaches stepping r)
      (found : r.instructionAt? r.nextInstruction = some i) (unmarked : i.op ≠ .rep) :
      Runs stepping p i (r.jumpTo (r.nextInstruction + 4))
  | body {q r : Processor δ} {mark i : Instruction} (reached : p.Reaches stepping r)
      (found : r.instructionAt? r.nextInstruction = some mark) (marked : mark.op = .rep)
      (counted : Execution.countRepetition.run (r.jumpTo (r.nextInstruction + 4)) = .ok true q)
      (follows : q.instructionAt? q.nextInstruction = some i) : Runs stepping p i q

omit [PortDevice δ] in
theorem Runs.mem_program {stepping : Bool} {p q : Processor δ} {i : Instruction}
    (runs : p.Runs stepping i q) : i ∈ p.program := by
  cases runs with
  | @next r i reached found unmarked =>
      obtain ⟨interruptQueue, same⟩ := reached.surroundings_eq
      have program : r.program = p.program := congrArg Surroundings.program same
      exact program ▸ Array.mem_of_getElem? found
  | @body q r mark i reached found marked counted follows =>
      obtain ⟨interruptQueue, same⟩ := reached.surroundings_eq
      have kept := (Execution.unaware_countRepetition.keeps _).of_ok counted
      have program : q.program = p.program :=
        (congrArg Surroundings.program kept).trans (congrArg Surroundings.program same)
      exact program ▸ Array.mem_of_getElem? follows

/-- What the step executes neither draws a random number nor reads the clock port. -/
def Blind (stepping : Bool) (p : Processor Board) : Prop :=
  ∀ i q, p.Runs stepping i q → i.Blind q

variable {p q : Processor Board}

/-- A program that takes nothing from ports and draws no random numbers makes blind steps only. -/
theorem blind_of_program
    (deaf : ∀ i ∈ p.program,
      i.op ≠ .system .rdrand ∧ i.op ≠ .port .input ∧ ∀ w, i.op ≠ .port (.ins w))
    (stepping : Bool) : p.Blind stepping := by
  intro i q runs
  obtain ⟨drawless, noInput, noString⟩ := deaf i runs.mem_program
  refine ⟨drawless, fun {op} transfers => ?_⟩
  cases op with
  | input => exact absurd transfers noInput
  | ins w => exact absurd transfers (noString w)
  | output | outs w => nofun

theorem Resembles.instructionAt? (like : p.Resembles q) :
    q.instructionAt? q.nextInstruction = p.instructionAt? p.nextInstruction ∧
      q.nextInstruction = p.nextInstruction := by
  obtain ⟨buffer, draws, time, rfl⟩ := like
  exact ⟨rfl, rfl⟩

theorem executeBody_agree (like : p.Resembles q)
    (blind : ∀ i, p.instructionAt? p.nextInstruction = some i → i.Blind p) :
    Agree Resembles (executeBody (δ := Board)) executeBody p q := by
  obtain ⟨same, next⟩ := like.instructionAt?
  cases found : p.instructionAt? p.nextInstruction with
  | none =>
      have missing := executeBody_of_missing (same.trans found)
      rw [next] at missing
      exact .failed (executeBody_of_missing found) missing like
  | some i =>
      exact (Instruction.agree_execute (blind i found) like).of_runs (executeBody_of_found found)
        (executeBody_of_found (same.trans found))

/-- The instruction that stands at `address` is blind, and so is the one after a repeat mark that
counts on. -/
structure BlindAt (p : Processor Board) (i : Instruction) : Prop where
  unmarked (unmarked : i.op ≠ .rep) : i.Blind p
  marked {q : Processor Board} {body : Instruction} (marked : i.op = .rep)
      (counted : Execution.countRepetition.run p = .ok true q)
      (follows : q.instructionAt? q.nextInstruction = some body) : body.Blind q

theorem executeAt_agree (address : Word) {i : Instruction} (like : p.Resembles q)
    (blind : p.BlindAt i) :
    Agree Resembles (executeAt (δ := Board) address i) (executeAt address i) p q := by
  by_cases mark : i.op = .rep
  · have first := executeAt_of_mark mark address p
    have second := executeAt_of_mark mark address q
    cases Execution.unaware_countRepetition.agree like with
    | @failed f p' q' ran ran' alike =>
        rw [ran] at first
        rw [ran'] at second
        exact .failed first second alike
    | @done more p' q' ran ran' alike =>
        rw [ran] at first
        rw [ran'] at second
        cases more with
        | false =>
            have moved := alike.jumpTo (p'.nextInstruction + 4)
            refine .done first second ?_
            rwa [alike.instructionAt?.2]
        | true =>
            cases executeBody_agree alike fun body => blind.marked mark ran with
            | done ended ended' alike =>
                simp only [ended] at first
                simp only [ended'] at second
                exact .done first second (alike.jumpTo address)
            | failed ended ended' alike =>
                simp only [ended] at first
                simp only [ended'] at second
                exact .failed first second (alike.jumpTo address)
  · rw [executeAt_of_unmarked mark]
    exact Instruction.agree_execute (blind.unmarked mark) like

theorem stepInstruction_resembles (like : p.Resembles q)
    (blind : ∀ i, p.instructionAt? p.nextInstruction = some i →
      (p.jumpTo (p.nextInstruction + 4)).BlindAt i) :
    (stepInstruction p).1 = (stepInstruction q).1 ∧
      (stepInstruction p).2.Resembles (stepInstruction q).2 := by
  obtain ⟨same, next⟩ := like.instructionAt?
  cases found : p.instructionAt? p.nextInstruction with
  | none =>
      have absent : Executes p _ := .absent found
      have absent' : Executes q _ := .absent (same.trans found)
      rw [absent.eq, absent'.eq, next]
      exact ⟨rfl, like.recordFault _⟩
  | some i =>
      have found' := same.trans found
      have agree := executeAt_agree p.nextInstruction (like.jumpTo (p.nextInstruction + 4))
        (blind i found)
      rw [← next] at agree
      cases agree with
      | done ran ran' alike =>
          rw [next] at ran
          have ended : Executes p _ := .done found ran
          have ended' : Executes q _ := .done found' ran'
          rw [ended.eq, ended'.eq]
          exact ⟨rfl, alike.syncEip⟩
      | failed ran ran' alike =>
          rw [next] at ran
          have ended : Executes p _ := .faulted found ran
          have ended' : Executes q _ := .faulted found' ran'
          rw [ended.eq, ended'.eq, next]
          exact ⟨rfl, alike.rewound _ _⟩

theorem Blind.reached {stepping : Bool} {r : Processor Board} (blind : p.Blind stepping)
    (reached : p.Reaches stepping r) {i : Instruction}
    (found : r.instructionAt? r.nextInstruction = some i) :
    (r.jumpTo (r.nextInstruction + 4)).BlindAt i where
  unmarked unmarked := blind _ _ (.next reached found unmarked)
  marked marked counted follows := blind _ _ (.body reached found marked counted follows)

/-- Processors that resemble each other make the same steps, as long as these are blind. -/
theorem step_resembles {stepping : Bool} (like : p.Resembles q) (blind : p.Blind stepping) :
    (step stepping p).1 = (step stepping q).1 ∧
      (step stepping p).2.Resembles (step stepping q).2 := by
  obtain ⟨buffer, draws, time, rfl⟩ := like
  have delivered := deliver_disguised (faithful_mask buffer draws time) p.syncEip
  rw [← disguised_syncEip] at delivered
  cases came : deliver p.syncEip with
  | faulted r =>
      rw [came] at delivered
      rw [step, step, came, delivered, Delivery.map]
      exact ⟨rfl, buffer, draws, time, rfl⟩
  | none r =>
      rw [came] at delivered
      rw [step, step, came, delivered, Delivery.map]
      exact stepInstruction_resembles ⟨buffer, draws, time, rfl⟩
        fun i found => blind.reached (.idle came) found
  | entered r =>
      rw [came] at delivered
      rw [step, step, came, delivered, Delivery.map]
      cases stepping with
      | true => exact ⟨rfl, buffer, draws, time, rfl⟩
      | false =>
          exact stepInstruction_resembles ⟨buffer, draws, time, rfl⟩
            fun i found => blind.reached (.entered rfl came) found

end Processor

end ReducedX86
