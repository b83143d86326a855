import ReducedX86.Proofs.Execution.Control
import ReducedX86.Proofs.Execution.Surroundings

/-!
What a step can do.

A step is a delivery and, unless that was all, an instruction. For each of the two there is a
relation with one constructor for each way it can go; what is shown of steps is shown by cases on
these. The first use of it is that neither the program nor the clock, which are the host's, is
changed by a step.
-/
namespace ReducedX86

-- Two processors are compared field by field; what is in the registers need not be looked into.
attribute [local irreducible] RegisterFile.set

variable {δ : Type}

theorem Control.Follows.faults_eq {c c' : Control} (follows : c.Follows c') :
    c'.fault = c.fault ∧ c'.faultLog = c.faultLog := by
  cases follows <;> exact ⟨rfl, rfl⟩

namespace Processor

/-- The processor with other interrupts requested. -/
def requesting (p : Processor δ) (interruptQueue : List UInt8) : Processor δ :=
  { p with interruptQueue }

/-- The processor in the handler it entered. -/
def inHandler (p : Processor δ) : Processor δ :=
  (p.withFlags { p.flags with interrupt := false }).syncEip

/-- The processor after a fault of the instruction at `address`. -/
def rewound (p : Processor δ) (f : Fault) (address : Word) : Processor δ :=
  ((p.recordFault f).jumpTo address).syncEip

def Delivery.map {ε : Type} (g : Processor δ → Processor ε) : Delivery δ → Delivery ε
  | .none p => .none (g p)
  | .entered p => .entered (g p)
  | .faulted p => .faulted (g p)

/-- What a delivery can come to. -/
inductive Delivers (p : Processor δ) : Delivery δ → Prop
  | idle (silent : p.flags.interrupt = false ∨ p.interruptQueue = []) : Delivers p (.none p)
  | entered {number : UInt8} {rest : List UInt8} {q : Processor δ}
      (enabled : p.flags.interrupt = true) (queued : p.interruptQueue = number :: rest)
      (ran : (Execution.enterHandler (UInt32.ofNat number.toNat)).run (p.requesting rest) =
        .ok () q) :
      Delivers p (.entered q.inHandler)
  | faulted {number : UInt8} {rest : List UInt8} {f : Fault} {q : Processor δ}
      (enabled : p.flags.interrupt = true) (queued : p.interruptQueue = number :: rest)
      (ran : (Execution.enterHandler (UInt32.ofNat number.toNat)).run (p.requesting rest) =
        .error f q) :
      Delivers p (.faulted (q.recordFault f))

theorem delivers (p : Processor δ) : Delivers p (deliver p) := by
  rw [deliver]
  cases enabled : p.flags.interrupt with
  | false => exact .idle (.inl enabled)
  | true =>
      cases queued : p.interruptQueue with
      | nil => exact .idle (.inr queued)
      | cons number rest =>
          simp only [Bool.not_true, Bool.false_eq_true, ↓reduceIte]
          split
          · rename_i f q ran
            exact .faulted enabled queued ran
          · rename_i q ran
            exact .entered enabled queued ran

theorem Delivers.eq {p : Processor δ} {d : Delivery δ} (h : Delivers p d) : deliver p = d := by
  cases h with
  | idle silent =>
      rw [deliver]
      rcases silent with disabled | empty
      · rw [disabled]
        rfl
      · rw [empty]
        cases p.flags.interrupt <;> rfl
  | entered enabled queued ran | faulted enabled queued ran =>
      rw [requesting] at ran
      simp only [deliver, enabled, queued, ran]
      rfl

variable {ε : Type} {f : Disguise δ ε}

/-- Requests and faults can be told through the disguise. -/
structure Faithful (f : Disguise δ ε) : Prop where
  interruptQueue (p : Processor δ) : (p.disguised f).interruptQueue = p.interruptQueue
  requesting (p : Processor δ) (interruptQueue : List UInt8) :
    (p.disguised f).requesting interruptQueue = (p.requesting interruptQueue).disguised f
  recordFault (p : Processor δ) (e : Fault) :
    (p.disguised f).recordFault e = (p.recordFault e).disguised f

theorem disguised_syncEip (p : Processor δ) (f : Disguise δ ε) :
    (p.disguised f).syncEip = p.syncEip.disguised f :=
  disguised_setReg p f .eip p.nextInstruction

theorem disguised_inHandler (p : Processor δ) (f : Disguise δ ε) :
    (p.disguised f).inHandler = p.inHandler.disguised f :=
  disguised_syncEip (p.withFlags _) f

/-- A delivery does not see through a disguise. -/
theorem deliver_disguised (faithful : Faithful f) (p : Processor δ) :
    deliver (p.disguised f) = (deliver p).map (·.disguised f) := by
  have enters (number : UInt8) :=
    Execution.unaware_enterHandler (UInt32.ofNat number.toNat) f
  have came := delivers p
  generalize deliver p = d at came ⊢
  cases came with
  | idle silent =>
      rw [← faithful.interruptQueue p] at silent
      have silent' : Delivers (p.disguised f) _ := .idle silent
      exact silent'.eq
  | @entered number rest q enabled queued ran =>
      rw [← faithful.interruptQueue p] at queued
      have ran' := (enters number).run_ok ran
      rw [← faithful.requesting] at ran'
      have entered : Delivers (p.disguised f) _ := .entered enabled queued ran'
      rw [entered.eq, disguised_inHandler, Delivery.map]
  | @faulted number rest e q enabled queued ran =>
      rw [← faithful.interruptQueue p] at queued
      have ran' := (enters number).run_error ran
      rw [← faithful.requesting] at ran'
      have faulted : Delivers (p.disguised f) _ := .faulted enabled queued ran'
      rw [faulted.eq, faithful.recordFault, Delivery.map]

variable [PortDevice δ]

theorem executeBody_of_missing {p : Processor δ}
    (missing : p.instructionAt? p.nextInstruction = none) :
    executeBody.run p = .error (.invalidInstructionAddress p.nextInstruction) p := by
  simp only [executeBody, EStateM.run_bind, EStateM.run_get, missing, EStateM.run_throw]

theorem executeBody_of_found {p : Processor δ} {body : Instruction}
    (found : p.instructionAt? p.nextInstruction = some body) :
    executeBody.run p = body.execute.run p := by
  simp only [executeBody, EStateM.run_bind, EStateM.run_get, found]

theorem executeAt_of_mark {i : Instruction} (mark : i.op = .rep) (address : Word)
    (p : Processor δ) :
    (executeAt address i).run p =
      match Execution.countRepetition.run p with
      | .ok true q =>
          match executeBody.run q with
          | .ok () r => .ok () (r.jumpTo address)
          | .error f r => .error f (r.jumpTo address)
      | .ok false q => .ok () (q.jumpTo (q.nextInstruction + 4))
      | .error f q => .error f q := by
  have chosen : executeAt (δ := δ) address i = _ := if_pos mark
  rw [chosen]
  rfl

theorem executeAt_of_unmarked {i : Instruction} (unmarked : i.op ≠ .rep) (address : Word) :
    executeAt (δ := δ) address i = i.execute :=
  if_neg unmarked

/-- What the execution of the next instruction can come to. -/
inductive Executes (p : Processor δ) : Bool × Processor δ → Prop
  | absent (missing : p.instructionAt? p.nextInstruction = none) :
      Executes p (false, p.recordFault (.invalidInstructionAddress p.nextInstruction))
  | done {i : Instruction} {q : Processor δ} (found : p.instructionAt? p.nextInstruction = some i)
      (ran : (executeAt p.nextInstruction i).run (p.jumpTo (p.nextInstruction + 4)) = .ok () q) :
      Executes p (true, q.syncEip)
  | faulted {i : Instruction} {f : Fault} {q : Processor δ}
      (found : p.instructionAt? p.nextInstruction = some i)
      (ran : (executeAt p.nextInstruction i).run (p.jumpTo (p.nextInstruction + 4)) = .error f q) :
      Executes p (true, q.rewound f p.nextInstruction)

theorem executes (p : Processor δ) : Executes p (stepInstruction p) := by
  rw [stepInstruction]
  simp only
  split
  · rename_i missing
    exact .absent missing
  · rename_i i found
    split
    · rename_i q ran
      exact .done found ran
    · rename_i f q ran
      exact .faulted found ran

theorem Executes.eq {p : Processor δ} {r : Bool × Processor δ} (h : Executes p r) :
    stepInstruction p = r := by
  cases h with
  | absent missing => simp only [stepInstruction, missing]
  | done found ran =>
      rw [jumpTo] at ran
      simp only [stepInstruction, found, ran]
  | faulted found ran =>
      rw [jumpTo] at ran
      simp only [stepInstruction, found, ran]
      rfl

/-- The step from `p` comes to run an instruction, and does so from `q`. -/
inductive Reaches (stepping : Bool) (p q : Processor δ) : Prop
  | idle (none : deliver p.syncEip = .none q)
  | entered (running : stepping = false) (entered : deliver p.syncEip = .entered q)

/-- What a step can come to. -/
inductive Steps (stepping : Bool) (p : Processor δ) : Bool × Processor δ → Prop
  | refused {q : Processor δ} (faulted : deliver p.syncEip = .faulted q) :
      Steps stepping p (false, q)
  | delivered {q : Processor δ} (alone : stepping = true)
      (entered : deliver p.syncEip = .entered q) : Steps stepping p (true, q)
  | executed {q : Processor δ} (reached : p.Reaches stepping q) :
      Steps stepping p (stepInstruction q)

theorem steps (stepping : Bool) (p : Processor δ) : Steps stepping p (step stepping p) := by
  rw [step]
  cases delivered : deliver p.syncEip with
  | faulted q => exact .refused delivered
  | none q => exact .executed (.idle delivered)
  | entered q =>
      cases stepping with
      | true => exact .delivered rfl delivered
      | false => exact .executed (.entered rfl delivered)

/-! What only the host changes -/

omit [PortDevice δ]

/-- The fields of a processor that only its host changes. -/
def standing (p : Processor δ) : Array Instruction × Reading := (p.program, p.now)

@[simp] theorem standing_jumpTo (p : Processor δ) (address : Word) :
    (p.jumpTo address).standing = p.standing := rfl

@[simp] theorem standing_syncEip (p : Processor δ) : p.syncEip.standing = p.standing := rfl

@[simp] theorem standing_recordFault (p : Processor δ) (f : Fault) :
    (p.recordFault f).standing = p.standing := rfl

theorem standing_eq {p q : Processor δ} (program : q.program = p.program) (now : q.now = p.now) :
    q.standing = p.standing :=
  Prod.ext program now

theorem standing_of_surroundings {p q : Processor δ} (same : q.surroundings = p.surroundings) :
    q.standing = p.standing :=
  standing_eq (congrArg Surroundings.program same) (congrArg Surroundings.now same)

theorem free_of_surroundings {p q : Processor δ} (same : q.surroundings = p.surroundings)
    (free : p.pendingTransfer = none) : q.pendingTransfer = none :=
  (congrArg Surroundings.pendingTransfer same).trans free

/-- The processor that a delivery leaves. -/
def Delivery.state : Delivery δ → Processor δ
  | .none p | .entered p | .faulted p => p

theorem surroundings_inHandler (p : Processor δ) :
    p.inHandler.surroundings = p.surroundings := by
  simp only [surroundings, inHandler, syncEip, setReg, withFlags]

/-- A delivery takes a request and may record a fault. -/
theorem surroundings_deliver (p : Processor δ) :
    ∃ fault faultLog interruptQueue, (deliver p).state.surroundings =
      { p.surroundings with fault, faultLog, interruptQueue } := by
  have kept (number : UInt8) (rest : List UInt8) :=
    (Execution.unaware_enterHandler (UInt32.ofNat number.toNat)).keeps (p.requesting rest)
  have came := delivers p
  generalize deliver p = d at came ⊢
  cases came with
  | idle => exact ⟨p.fault, p.faultLog, p.interruptQueue, rfl⟩
  | @entered number rest q enabled queued ran =>
      refine ⟨p.fault, p.faultLog, rest, ?_⟩
      rw [Delivery.state, surroundings_inHandler]
      exact (kept number rest).of_ok ran
  | @faulted number rest f q enabled queued ran =>
      have same := (kept number rest).of_error ran
      refine ⟨some f, f :: p.faultLog, rest, ?_⟩
      simp only [surroundings, Surroundings.mk.injEq, Delivery.state, recordFault, requesting]
        at same ⊢
      simp only [same, and_self]

theorem standing_deliver (p : Processor δ) : (deliver p).state.standing = p.standing := by
  obtain ⟨fault, faultLog, interruptQueue, same⟩ := surroundings_deliver p
  exact standing_eq (congrArg Surroundings.program same) (congrArg Surroundings.now same)

theorem pendingTransfer_deliver (p : Processor δ) :
    (deliver p).state.pendingTransfer = p.pendingTransfer := by
  obtain ⟨fault, faultLog, interruptQueue, same⟩ := surroundings_deliver p
  exact congrArg Surroundings.pendingTransfer same

theorem Reaches.surroundings_eq {stepping : Bool} {p q : Processor δ}
    (reached : p.Reaches stepping q) :
    ∃ interruptQueue, q.surroundings = { p.surroundings with interruptQueue } := by
  have came := delivers p.syncEip
  cases reached with
  | idle none =>
      rw [none] at came
      cases came
      exact ⟨p.interruptQueue, rfl⟩
  | entered running entered =>
      rw [entered] at came
      cases came with
      | @entered number rest q enabled queued ran =>
          have kept := (Execution.unaware_enterHandler (UInt32.ofNat number.toNat)).keeps
            (p.syncEip.requesting rest)
          refine ⟨rest, ?_⟩
          rw [surroundings_inHandler, kept.of_ok ran]
          rfl

end Processor

/-- However the execution ends, program and clock are what they were. -/
def Execution.KeepsStanding {α : Type} (x : Execution δ α) : Prop :=
  ∀ p, Outcome x (fun _ q => q.standing = p.standing) (fun _ q => q.standing = p.standing) p

variable [PortDevice δ]

theorem Instruction.keepsStanding_execute (i : Instruction) :
    Execution.KeepsStanding (i.execute (δ := δ)) := by
  intro p
  have control := i.stepsControl_execute p
  have now := i.execute_now p
  cases ran : i.execute.run p with
  | ok a q =>
      have program : q.program = p.program := by
        have follows := control.of_ok ran
        change q.control.program = p.control.program
        generalize q.control = c at follows ⊢
        cases follows <;> rfl
      rw [Outcome, ran]
      exact Processor.standing_eq program (now.of_ok ran)
  | error f q =>
      have program : q.program = p.program := congrArg Control.program (control.of_error ran)
      rw [Outcome, ran]
      exact Processor.standing_eq program (now.of_error ran)

namespace Processor

theorem keepsStanding_executeBody : Execution.KeepsStanding (executeBody (δ := δ)) := by
  intro p
  simp only [executeBody, outcome_bind, outcome_get]
  split
  · rename_i body found
    exact body.keepsStanding_execute p
  · rfl

theorem keepsStanding_executeAt (address : Word) (i : Instruction) :
    Execution.KeepsStanding (executeAt (δ := δ) address i) := by
  intro p
  by_cases mark : i.op = .rep
  · rw [outcome_executeAt_rep mark]
    apply (Execution.unaware_countRepetition.keeps p).mono
    · intro more q kept
      rw [← standing_of_surroundings kept]
      split
      · exact keepsStanding_executeBody q
      · rfl
    · intro f q kept
      exact standing_of_surroundings kept
  · rw [executeAt_of_unmarked mark]
    exact i.keepsStanding_execute p

theorem standing_stepInstruction (p : Processor δ) :
    (stepInstruction p).2.standing = p.standing := by
  have kept (i : Instruction) :=
    keepsStanding_executeAt p.nextInstruction i (p.jumpTo (p.nextInstruction + 4))
  have came := executes p
  generalize stepInstruction p = r at came ⊢
  cases came with
  | absent => rfl
  | done found ran =>
      have same := (kept _).of_ok ran
      simpa using same
  | faulted found ran =>
      have same := (kept _).of_error ran
      simpa [rewound] using same

/-- What a delivery leads to and the execution of an instruction keeps holds after a step. -/
theorem step_preserves {P : Processor δ → Prop} (stepping : Bool) {p : Processor δ}
    (delivered : P (deliver p.syncEip).state)
    (executed : ∀ q, P q → P (stepInstruction q).2) : P (step stepping p).2 := by
  have came := steps stepping p
  generalize step stepping p = r at came ⊢
  cases came with
  | refused faulted =>
      rw [faulted] at delivered
      exact delivered
  | delivered alone entered =>
      rw [entered] at delivered
      exact delivered
  | executed reached =>
      apply executed
      cases reached with
      | idle none =>
          rw [none] at delivered
          exact delivered
      | entered running entered =>
          rw [entered] at delivered
          exact delivered

/-- A step changes neither the program nor the clock. -/
theorem standing_step (stepping : Bool) (p : Processor δ) :
    (step stepping p).2.standing = p.standing := by
  have delivered : (deliver p.syncEip).state.standing = p.standing :=
    (standing_deliver p.syncEip).trans (standing_syncEip p)
  refine step_preserves (P := fun q => q.standing = p.standing) stepping delivered ?_
  intro q same
  exact (standing_stepInstruction q).trans same

theorem program_step (stepping : Bool) (p : Processor δ) :
    (step stepping p).2.program = p.program :=
  congrArg Prod.fst (standing_step stepping p)

/-- A step records no fault, or one that it also leaves as the last. -/
theorem step_faults (stepping : Bool) (p : Processor δ) :
    ((step stepping p).2.fault = p.fault ∧ (step stepping p).2.faultLog = p.faultLog) ∨
      ∃ f, (step stepping p).2.fault = some f ∧ (step stepping p).2.faultLog = f :: p.faultLog := by
  have came := steps stepping p
  generalize step stepping p = r at came ⊢
  cases came with
  | @refused q faulted =>
      have delivered := delivers p.syncEip
      rw [faulted] at delivered
      cases delivered with
      | @faulted number rest f q enabled queued ran =>
          have kept := (Execution.unaware_enterHandler (UInt32.ofNat number.toNat)).keeps
            (p.syncEip.requesting rest)
          have same := congrArg Surroundings.faultLog (kept.of_error ran)
          exact .inr ⟨f, rfl, congrArg (f :: ·) same⟩
  | @delivered q alone entered =>
      obtain ⟨interruptQueue, same⟩ := Reaches.surroundings_eq (.entered rfl entered)
      exact .inl ⟨congrArg Surroundings.fault same, congrArg Surroundings.faultLog same⟩
  | @executed q reached =>
      obtain ⟨interruptQueue, same⟩ := reached.surroundings_eq
      have sameFault : q.fault = p.fault := congrArg Surroundings.fault same
      have sameLog : q.faultLog = p.faultLog := congrArg Surroundings.faultLog same
      have control (i : Instruction) :=
        stepsControl_executeAt q.nextInstruction i (q.jumpTo (q.nextInstruction + 4))
      have executed := executes q
      generalize stepInstruction q = r at executed ⊢
      cases executed with
      | absent missing => exact .inr ⟨_, rfl, congrArg (_ :: ·) sameLog⟩
      | @done i r found ran =>
          obtain ⟨fault, faultLog⟩ := ((control i).of_ok ran).faults_eq
          exact .inl ⟨fault.trans sameFault, faultLog.trans sameLog⟩
      | @faulted i f r found ran =>
          have kept := congrArg Control.faultLog ((control i).of_error ran)
          exact .inr ⟨f, rfl, congrArg (f :: ·) (kept.trans sameLog)⟩

end Processor

end ReducedX86
