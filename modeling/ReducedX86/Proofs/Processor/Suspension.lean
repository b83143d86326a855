import Mathlib.Logic.Function.Iterate
import ReducedX86.Device.Script
import ReducedX86.Proofs.Instruction.Validation
import ReducedX86.Proofs.Processor.Transfer

/-!
A transfer that waits does what it would have done at once.

A device may refuse a transfer; the host then completes it with a value of its own. `Served.step`
is a step together with this service. Beside the device there is one that never refuses: it asks
the other, and hands over the host's value where that one refuses (`Obliging`). The two lead to the
same registers, flags and memory, as long as no store of a completed transfer faults.
-/
namespace ReducedX86

-- Two processors are compared field by field; what is in the registers need not be looked into.
attribute [local irreducible] RegisterFile.set

variable {δ : Type}

/-- Values that a host has at hand, in the order of their use. -/
abbrev Supply := Nat → Word

namespace Supply

def first (s : Supply) : Word := s 0

def rest (s : Supply) : Supply := fun k => s (k + 1)

end Supply

/-- A device that accepts every transfer. It asks another one; where that one refuses, it takes the
value from a supply. -/
structure Obliging (δ : Type) where
  device : δ
  /-- the exchange buffer as `device` knows it -/
  buffer : Word
  supply : Supply

instance [PortDevice δ] : PortDevice (Obliging δ) where
  input d now port size _ :=
    match PortDevice.input d.device now port size d.buffer with
    | (true, value, device) => (true, value, ⟨device, value, d.supply⟩)
    | (false, _, device) => (true, d.supply.first, ⟨device, d.supply.first, d.supply.rest⟩)
  output d now port size value :=
    match PortDevice.output d.device now port size value with
    | (true, device) => (true, ⟨device, value, d.supply⟩)
    | (false, device) => (true, ⟨device, d.supply.first, d.supply.rest⟩)

/-- A processor whose host completes the transfers that its device refuses. -/
structure Served (δ : Type) where
  processor : Processor δ
  supply : Supply

namespace Served

/-- Completes a pending transfer with the next value of the supply. -/
def settle (r : Served δ) : Except Fault Bool × Served δ :=
  match r.processor.pendingTransfer with
  | none => (.ok false, r)
  | some _ =>
      let (result, processor) := (r.processor.filled r.supply.first).resumeTransfer
      (result, ⟨processor, r.supply.rest⟩)

/-- Without a fault the host makes `r'` of `r`. -/
def Settles (r r' : Served δ) : Prop := ∃ done, r.settle = (.ok done, r')

theorem settles_of_free {q : Processor δ} {supply : Supply} {r : Served δ}
    (free : q.pendingTransfer = none) (settles : Settles ⟨q, supply⟩ r) : r = ⟨q, supply⟩ := by
  obtain ⟨done, settled⟩ := settles
  simp only [settle, free] at settled
  cases settled
  rfl

theorem settles_iff {q : Processor δ} {supply : Supply} {r : Served δ} {t : PendingTransfer}
    (pending : q.pendingTransfer = some t) :
    Settles ⟨q, supply⟩ r ↔
      (Execution.complete supply.first t).run
          (q.filled supply.first).released = .ok () r.processor ∧
        r.supply = supply.rest := by
  cases ran : (Execution.complete supply.first t).run (q.filled supply.first).released with
  | ok u p =>
      have resumed := Processor.resumeTransfer_of_ok (p := q.filled supply.first) pending ran
      simp only [Settles, settle, pending, resumed]
      constructor
      · rintro ⟨done, settled⟩
        cases settled
        exact ⟨rfl, rfl⟩
      · rintro ⟨same, rest⟩
        cases same
        exact ⟨true, by rw [← rest]⟩
  | error f p =>
      have resumed := Processor.resumeTransfer_of_error (p := q.filled supply.first) pending ran
      simp only [Settles, settle, pending, resumed]
      constructor
      · rintro ⟨done, settled⟩
        cases settled
      · rintro ⟨same, rest⟩
        cases same

/-- What commutes with the completion of a transfer can be done after it. -/
theorem Settles.carried {f : Processor δ → Processor δ} {q : Processor δ} {supply : Supply}
    {r : Served δ} (settles : Settles ⟨f q, supply⟩ r)
    (pending : (f q).pendingTransfer = q.pendingTransfer)
    (filled : ((f q).filled supply.first).released = f (q.filled supply.first).released)
    (carries : ∀ t, q.pendingTransfer = some t →
      Carries f (Execution.complete supply.first t) (Execution.complete supply.first t)) :
    ∃ r', Settles ⟨q, supply⟩ r' ∧ r = ⟨f r'.processor, r'.supply⟩ := by
  cases waits : q.pendingTransfer with
  | none =>
      cases settles_of_free (pending.trans waits) settles
      exact ⟨⟨q, supply⟩, ⟨false, by simp only [settle, waits]⟩, rfl⟩
  | some t =>
      obtain ⟨ran, rest⟩ := (settles_iff (pending.trans waits)).mp settles
      rw [filled] at ran
      cases ran' : (Execution.complete supply.first t).run (q.filled supply.first).released with
      | ok u p =>
          rw [(carries t waits).run_ok ran'] at ran
          obtain ⟨p', supply'⟩ := r
          cases ran
          cases rest
          exact ⟨⟨p, supply.rest⟩, (settles_iff waits).mpr ⟨ran', rfl⟩, rfl⟩
      | error e p =>
          rw [(carries t waits).run_error ran'] at ran
          cases ran

theorem Settles.of_jumpTo {q : Processor δ} {address : Word} {supply : Supply} {r : Served δ}
    (settles : Settles ⟨q.jumpTo address, supply⟩ r) :
    ∃ r', Settles ⟨q, supply⟩ r' ∧ r = ⟨r'.processor.jumpTo address, r'.supply⟩ :=
  Settles.carried (f := (Processor.jumpTo · address)) settles rfl rfl
    fun t _ => Execution.carries_complete_jumpTo address supply.first t

theorem Settles.of_syncEip {q : Processor δ} {supply : Supply} {r : Served δ}
    (settles : Settles ⟨q.syncEip, supply⟩ r)
    (spares : ∀ t, q.pendingTransfer = some t → t.SparesEip) :
    ∃ r', Settles ⟨q, supply⟩ r' ∧ r = ⟨r'.processor.syncEip, r'.supply⟩ :=
  settles.carried rfl rfl
    fun t pending => Execution.carries_complete_syncEip supply.first (spares t pending)

variable [PortDevice δ]

def advance (stepping : Bool) (r : Served δ) : Served δ :=
  { r with processor := (r.processor.step stepping).2 }

/-- A step, and then what the host does. -/
def step (stepping : Bool) (r : Served δ) : Served δ := (r.advance stepping).settle.2

end Served

/-- The same surroundings with the obliging device, and nothing pending. -/
def Surroundings.obliging (s : Surroundings δ) (supply : Supply) (buffer : Word) :
    Surroundings (Obliging δ) :=
  { s with pendingTransfer := none, buffer, device := ⟨s.device, s.buffer, supply⟩ }

/-- The processor with the obliging device in place of its own. -/
def Processor.obliged (p : Processor δ) (supply : Supply) (buffer : Word) :
    Processor (Obliging δ) :=
  p.inside (p.surroundings.obliging supply buffer)

namespace Processor

variable (p : Processor δ) (supply : Supply) (buffer : Word)

theorem obliged_jumpTo (address : Word) :
    (p.obliged supply buffer).jumpTo address = (p.jumpTo address).obliged supply buffer := rfl

theorem obliged_recordFault (f : Fault) :
    (p.obliged supply buffer).recordFault f = (p.recordFault f).obliged supply buffer := rfl

theorem obliged_syncEip :
    (p.obliged supply buffer).syncEip = p.syncEip.obliged supply buffer := rfl

theorem obliged_rewound (f : Fault) (address : Word) :
    (p.obliged supply buffer).rewound f address = (p.rewound f address).obliged supply buffer :=
  obliged_syncEip ((p.recordFault f).jumpTo address) supply buffer

end Processor

namespace Execution

variable {α : Type}

theorem Portable.obliged_ok {x : Execution δ α} {y : Execution (Obliging δ) α}
    (portable : Portable x y) (own : Portable x x) {p q : Processor δ} {a : α}
    (ran : x.run p = .ok a q) (supply : Supply) (buffer : Word) :
    y.run (p.obliged supply buffer) = .ok a (q.obliged supply buffer) := by
  have kept := (own.keeps p).of_ok ran
  rw [Processor.obliged, Processor.obliged, kept]
  exact (portable.carries _).run_ok ran

theorem Portable.obliged_error {x : Execution δ α} {y : Execution (Obliging δ) α}
    (portable : Portable x y) (own : Portable x x) {p q : Processor δ} {f : Fault}
    (ran : x.run p = .error f q) (supply : Supply) (buffer : Word) :
    y.run (p.obliged supply buffer) = .error f (q.obliged supply buffer) := by
  have kept := (own.keeps p).of_error ran
  rw [Processor.obliged, Processor.obliged, kept]
  exact (portable.carries _).run_error ran

/-- What `x` does, and the host after it, `y` does at once with the obliging device. -/
def Transparent (x : Execution δ Unit) (y : Execution (Obliging δ) Unit) (p : Processor δ) : Prop :=
  ∀ supply buffer, p.pendingTransfer = none →
    Outcome x
      (fun _ q => (∀ t, q.pendingTransfer = some t → t.SparesEip) ∧
        ∀ r : Served δ, Served.Settles ⟨q, supply⟩ r → ∃ buffer',
          y.run (p.obliged supply buffer) = .ok () (r.processor.obliged r.supply buffer'))
      (fun f q => q.pendingTransfer = none ∧ ∃ buffer',
        y.run (p.obliged supply buffer) = .error f (q.obliged supply buffer'))
      p

theorem answers_of_free {y : Execution (Obliging δ) Unit} {p : Processor (Obliging δ)}
    {q : Processor δ} {supply : Supply} {buffer : Word} (free : q.pendingTransfer = none)
    (ran : y.run p = .ok () (q.obliged supply buffer)) :
    (∀ t, q.pendingTransfer = some t → t.SparesEip) ∧
      ∀ r : Served δ, Served.Settles ⟨q, supply⟩ r → ∃ buffer',
        y.run p = .ok () (r.processor.obliged r.supply buffer') := by
  refine ⟨fun t pending => ?_, fun r settles => ⟨buffer, ?_⟩⟩
  · rw [free] at pending
    cases pending
  · cases Served.settles_of_free free settles
    exact ran

theorem transparent_of_portable {x : Execution δ Unit} {y : Execution (Obliging δ) Unit}
    (portable : Portable x y) (own : Portable x x) (p : Processor δ) : Transparent x y p := by
  intro supply buffer free
  cases ran : x.run p with
  | ok u q =>
      have free' : q.pendingTransfer = none :=
        Processor.free_of_surroundings ((own.keeps p).of_ok ran) free
      rw [Outcome, ran]
      exact answers_of_free free' (portable.obliged_ok own ran supply buffer)
  | error f q =>
      have free' : q.pendingTransfer = none :=
        Processor.free_of_surroundings ((own.keeps p).of_error ran) free
      rw [Outcome, ran]
      exact ⟨free', buffer, portable.obliged_error own ran supply buffer⟩

theorem Transparent.bind {x : Execution δ α} {y : Execution (Obliging δ) α}
    {k : α → Execution δ Unit} {l : α → Execution (Obliging δ) Unit} {p : Processor δ}
    (portable : Portable x y) (own : Portable x x)
    (next : ∀ a q, x.run p = .ok a q → Transparent (k a) (l a) q) :
    Transparent (x >>= k) (y >>= l) p := by
  intro supply buffer free
  rw [outcome_bind, Outcome, EStateM.run_bind]
  cases ran : x.run p with
  | ok a q =>
      have free' : q.pendingTransfer = none :=
        Processor.free_of_surroundings ((own.keeps p).of_ok ran) free
      rw [portable.obliged_ok own ran supply buffer]
      exact next a q ran supply buffer free'
  | error f q =>
      have free' : q.pendingTransfer = none :=
        Processor.free_of_surroundings ((own.keeps p).of_error ran) free
      rw [portable.obliged_error own ran supply buffer]
      exact ⟨free', buffer, rfl⟩

section Ports

variable [PortDevice δ] (p : Processor δ) (port : Word) (size : Nat) (t : PendingTransfer)

theorem inputFrom_obliged (supply : Supply) (buffer : Word) {accepted : Bool} {value : Word}
    {device : δ} (answer : p.inputFrom port size = (accepted, value, device)) :
    (p.obliged supply buffer).inputFrom port size =
      if accepted then (true, value, ⟨device, value, supply⟩)
      else (true, supply.first, ⟨device, supply.first, supply.rest⟩) := by
  have asked : (p.obliged supply buffer).inputFrom port size =
      match p.inputFrom port size with
      | (true, value, device) => (true, value, ⟨device, value, supply⟩)
      | (false, _, device) => (true, supply.first, ⟨device, supply.first, supply.rest⟩) := rfl
  rw [asked, answer]
  cases accepted <;> rfl

theorem outputTo_obliged (value : Word) (supply : Supply) (buffer : Word) {accepted : Bool}
    {device : δ} (answer : p.outputTo port value size = (accepted, device)) :
    (p.obliged supply buffer).outputTo port value size =
      if accepted then (true, ⟨device, value, supply⟩)
      else (true, ⟨device, supply.first, supply.rest⟩) := by
  have asked : (p.obliged supply buffer).outputTo port value size =
      match p.outputTo port value size with
      | (true, device) => (true, ⟨device, value, supply⟩)
      | (false, device) => (true, ⟨device, supply.first, supply.rest⟩) := rfl
  rw [asked, answer]
  cases accepted <;> rfl

variable {p port size t}

theorem transparent_receive (spares : t.SparesEip) :
    Transparent (receive port size t) (receive port size t) p := by
  intro supply buffer free
  rcases answer : p.inputFrom port size with ⟨accepted, value, device⟩
  have obliged := inputFrom_obliged p port size supply buffer answer
  cases accepted with
  | true =>
      rw [Outcome, receive_run p port size t answer, receive_run _ port size t obliged]
      exact transparent_of_portable (unaware_complete value t).portable
        (unaware_complete value t).portable (p.exchanged value device) supply value free
  | false =>
      rw [Outcome, receive_run p port size t answer, receive_run _ port size t obliged]
      refine ⟨?_, ?_⟩
      · rintro _ ⟨rfl⟩
        exact spares
      · intro r settles
        obtain ⟨ran, rest⟩ := (Served.settles_iff rfl).mp settles
        rw [rest]
        exact ⟨supply.first, (unaware_complete supply.first t).portable.obliged_ok
          (unaware_complete supply.first t).portable ran supply.rest supply.first⟩

theorem transparent_send (value : Word) {pointer : Option Register} (spares : pointer ≠ some .eip) :
    Transparent (send port value size pointer) (send port value size pointer) p := by
  intro supply buffer free
  rcases answer : p.outputTo port value size with ⟨accepted, device⟩
  have obliged := outputTo_obliged p port size value supply buffer answer
  have portable (first : Word) :=
    (unaware_complete (δ := δ) (ε := Obliging δ) first (.output pointer size)).portable
  have own (first : Word) :=
    (unaware_complete (δ := δ) (ε := δ) first (.output pointer size)).portable
  cases accepted with
  | true =>
      rw [Outcome, send_run p port size value pointer answer,
        send_run _ port size value pointer obliged]
      exact transparent_of_portable (portable value) (own value) (p.exchanged value device) supply
        value free
  | false =>
      rw [Outcome, send_run p port size value pointer answer,
        send_run _ port size value pointer obliged]
      refine ⟨?_, ?_⟩
      · rintro _ ⟨rfl⟩
        exact spares
      · intro r settles
        obtain ⟨ran, rest⟩ := (Served.settles_iff rfl).mp settles
        rw [rest]
        -- The obliging device has `value` in its buffer where the host put the next of the supply.
        have later :=
          (portable supply.first).obliged_ok (own supply.first) ran supply.rest value
        rw [complete_output supply.first value] at later
        exact ⟨value, later⟩

theorem transparent_port (op : PortOp) (operands : Operands) (p : Processor δ)
    (other : operands.1 ≠ some (.register .eip)) :
    Transparent (Execution.port op operands) (Execution.port op operands) p := by
  have reads (o : Operand) := (unaware_read (δ := δ) (ε := Obliging δ) o).portable
  have ownReads (o : Operand) := (unaware_read (δ := δ) (ε := δ) o).portable
  have takes (r : Register) := (unaware_reg (δ := δ) (ε := Obliging δ) r).portable
  have ownTakes (r : Register) := (unaware_reg (δ := δ) (ε := δ) r).portable
  unfold Execution.port
  split
  · rename_i target source
    have spares : target ≠ .eip := fun same => other (by rw [same])
    rw [inputTo_eq, inputTo_eq]
    exact .bind (reads source) (ownReads source) fun number q _ => transparent_receive spares
  · rename_i target source
    rw [outputFrom_eq, outputFrom_eq]
    refine .bind (reads target) (ownReads target) fun number q _ => ?_
    exact .bind (reads source) (ownReads source) fun value q _ => transparent_send value nofun
  · rw [inputString_eq, inputString_eq]
    exact .bind (takes .dx) (ownTakes .dx) fun number q _ => transparent_receive trivial
  · rw [outputString_eq, outputString_eq]
    refine .bind (takes .esi) (ownTakes .esi) fun start q _ => ?_
    refine .bind (unaware_readMemory _ _).portable (unaware_readMemory _ _).portable
      fun value q _ => ?_
    exact .bind (takes .dx) (ownTakes .dx) fun number q _ => transparent_send value nofun
  · exact transparent_of_portable (unaware_pure ()).portable (unaware_pure ()).portable p

end Ports

end Execution

variable [PortDevice δ]

theorem Instruction.Validated.transparent {i : Instruction} (valid : i.Validated) (p : Processor δ) :
    Execution.Transparent i.execute i.execute p := by
  by_cases other : ∀ op, i.op ≠ .port op
  · exact Execution.transparent_of_portable (i.portable_execute other) (i.portable_execute other) p
  · obtain ⟨op, isPort⟩ : ∃ op, i.op = .port op := by simpa using other
    have target := valid.ne_eip.1
    obtain ⟨_, op1, op2, position⟩ := i
    cases isPort
    exact Execution.transparent_port op (op1, op2) p target

namespace Processor

variable {p : Processor δ}

/-- The program holds only what the assembler admits. -/
def Admitted (p : Processor δ) : Prop := ∀ i ∈ p.program, i.Validated

omit [PortDevice δ] in
theorem Admitted.found (admitted : p.Admitted) {address : Word} {i : Instruction}
    (found : p.instructionAt? address = some i) : i.Validated :=
  admitted i (Array.mem_of_getElem? found)

theorem Admitted.transparent_executeBody (admitted : p.Admitted) :
    Execution.Transparent executeBody executeBody p := by
  intro supply buffer free
  have here : (p.obliged supply buffer).instructionAt? (p.obliged supply buffer).nextInstruction =
      p.instructionAt? p.nextInstruction := rfl
  cases found : p.instructionAt? p.nextInstruction with
  | none =>
      rw [Outcome, executeBody_of_missing found, executeBody_of_missing (here.trans found)]
      exact ⟨free, buffer, rfl⟩
  | some body =>
      rw [Outcome, executeBody_of_found found, executeBody_of_found (here.trans found)]
      exact (admitted.found found).transparent p supply buffer free

theorem Admitted.transparent_executeAt (admitted : p.Admitted) (address : Word) {i : Instruction}
    (valid : i.Validated) : Execution.Transparent (executeAt address i) (executeAt address i) p := by
  by_cases mark : i.op = .rep
  · intro supply buffer free
    have counts := (Execution.unaware_countRepetition (δ := δ) (ε := Obliging δ)).portable
    have own := (Execution.unaware_countRepetition (δ := δ) (ε := δ)).portable
    rw [Outcome, executeAt_of_mark mark, executeAt_of_mark mark]
    cases counted : Execution.countRepetition.run p with
    | error f q =>
        have kept := (own.keeps p).of_error counted
        rw [counts.obliged_error own counted supply buffer]
        exact ⟨free_of_surroundings kept free, buffer, rfl⟩
    | ok more q =>
        have kept := (own.keeps p).of_ok counted
        have free' : q.pendingTransfer = none :=
          free_of_surroundings kept free
        rw [counts.obliged_ok own counted supply buffer]
        cases more with
        | false =>
            have free'' : (q.jumpTo (q.nextInstruction + 4)).pendingTransfer = none := free'
            exact Execution.answers_of_free free'' (by rw [obliged_jumpTo]; rfl)
        | true =>
            have same : q.program = p.program := congrArg Surroundings.program kept
            have admitted' : q.Admitted := by
              rw [Admitted, same]
              exact admitted
            have body := admitted'.transparent_executeBody supply buffer free'
            simp only
            cases ran : executeBody.run q with
            | ok u r =>
                obtain ⟨spares, settled⟩ := body.of_ok ran
                refine ⟨spares, fun s settles => ?_⟩
                -- The host completes the transfer after execution went back to the mark, the
                -- obliging device before; the two commute.
                obtain ⟨s', settles', rfl⟩ := settles.of_jumpTo
                obtain ⟨buffer', ran'⟩ := settled s' settles'
                rw [ran']
                exact ⟨buffer', rfl⟩
            | error f r =>
                obtain ⟨free'', buffer', ran'⟩ := body.of_error ran
                rw [ran']
                exact ⟨free'', buffer', rfl⟩
  · rw [executeAt_of_unmarked mark, executeAt_of_unmarked mark]
    exact valid.transparent p

omit [PortDevice δ] in
theorem deliver_obliged (p : Processor δ) (supply : Supply) (buffer : Word) :
    deliver (p.obliged supply buffer) = (deliver p).map (·.obliged supply buffer) :=
  deliver_disguised (f := fun s draws => (s.obliging supply buffer, draws))
    ⟨fun _ => rfl, fun _ _ => rfl, fun _ _ => rfl⟩ p

theorem Admitted.stepInstruction_obliged (admitted : p.Admitted) (free : p.pendingTransfer = none)
    {supply : Supply} {r : Served δ}
    (settles : Served.Settles ⟨(stepInstruction p).2, supply⟩ r) (buffer : Word) :
    ∃ buffer', stepInstruction (p.obliged supply buffer) =
      ((stepInstruction p).1, r.processor.obliged r.supply buffer') := by
  have transparent (i : Instruction) (valid : i.Validated) :=
    Admitted.transparent_executeAt (p := p.jumpTo (p.nextInstruction + 4)) admitted
      p.nextInstruction valid supply buffer free
  have came := executes p
  generalize stepInstruction p = s at came settles ⊢
  cases came with
  | absent missing =>
      have free' : (p.recordFault (.invalidInstructionAddress p.nextInstruction)).pendingTransfer =
        none := free
      cases Served.settles_of_free free' settles
      have absent : Executes (p.obliged supply buffer) _ := .absent missing
      rw [absent.eq, obliged_recordFault]
      exact ⟨buffer, rfl⟩
  | @done i q found ran =>
      obtain ⟨spares, settled⟩ := (transparent i (admitted.found found)).of_ok ran
      -- Here it is `eip` that is brought up to date in between.
      obtain ⟨r', settles', rfl⟩ := settles.of_syncEip spares
      obtain ⟨buffer', ran'⟩ := settled r' settles'
      rw [← obliged_jumpTo] at ran'
      have done : Executes (p.obliged supply buffer) _ := .done found ran'
      rw [done.eq, obliged_syncEip]
      exact ⟨buffer', rfl⟩
  | @faulted i f q found ran =>
      obtain ⟨free', buffer', ran'⟩ := (transparent i (admitted.found found)).of_error ran
      have free'' : (q.rewound f p.nextInstruction).pendingTransfer = none := free'
      cases Served.settles_of_free free'' settles
      rw [← obliged_jumpTo] at ran'
      have faulted : Executes (p.obliged supply buffer) _ := .faulted found ran'
      rw [faulted.eq]
      exact ⟨buffer', Prod.ext rfl (obliged_rewound ..)⟩

omit [PortDevice δ] in
theorem Admitted.of_deliver (admitted : p.Admitted) : (deliver p).state.Admitted := by
  have same : (deliver p).state.program = p.program := congrArg Prod.fst (standing_deliver p)
  rw [Admitted, same]
  exact admitted

theorem Admitted.step_obliged (admitted : p.Admitted) (free : p.pendingTransfer = none)
    (stepping : Bool) {supply : Supply} {r : Served δ}
    (settles : Served.Settles ⟨(step stepping p).2, supply⟩ r) (buffer : Word) :
    ∃ buffer', step stepping (p.obliged supply buffer) =
      ((step stepping p).1, r.processor.obliged r.supply buffer') := by
  have free' : (deliver p.syncEip).state.pendingTransfer = none :=
    (pendingTransfer_deliver p.syncEip).trans free
  have admitted' := Admitted.of_deliver (p := p.syncEip) admitted
  rw [step, obliged_syncEip, deliver_obliged]
  rw [step] at settles ⊢
  cases delivered : deliver p.syncEip with
  | none q =>
      rw [delivered] at settles free' admitted'
      exact admitted'.stepInstruction_obliged free' settles buffer
  | faulted q =>
      rw [delivered] at settles free'
      cases Served.settles_of_free free' settles
      exact ⟨buffer, rfl⟩
  | entered q =>
      rw [delivered] at settles free' admitted'
      cases stepping with
      | true =>
          cases Served.settles_of_free free' settles
          exact ⟨buffer, rfl⟩
      | false => exact admitted'.stepInstruction_obliged free' settles buffer

end Processor

namespace Served

variable {r : Served δ}

omit [PortDevice δ] in
theorem Settles.standing {q : Processor δ} {supply : Supply} (settles : Settles ⟨q, supply⟩ r) :
    r.processor.standing = q.standing ∧ r.processor.pendingTransfer = none := by
  cases pending : q.pendingTransfer with
  | none =>
      cases settles_of_free pending settles
      exact ⟨rfl, pending⟩
  | some t =>
      obtain ⟨ran, -⟩ := (settles_iff pending).mp settles
      have kept := ((Execution.unaware_complete supply.first t).keeps _).of_ok ran
      have same : (q.filled supply.first).released.standing = q.standing := rfl
      exact ⟨(Processor.standing_of_surroundings kept).trans same,
        congrArg Surroundings.pendingTransfer kept⟩

/-- The store of the transfer that the host completes after the next step does not fault. -/
def Stores (stepping : Bool) (r : Served δ) : Prop := (r.advance stepping).settle.1.isOk

theorem Stores.settles {stepping : Bool} (stores : r.Stores stepping) :
    (r.advance stepping).Settles (r.step stepping) := by
  rw [Stores] at stores
  cases settled : (r.advance stepping).settle.1 with
  | ok done => exact ⟨done, Prod.ext settled rfl⟩
  | error f =>
      rw [settled] at stores
      cases stores

theorem iterate_obliged (stepping : Bool) (n : Nat) (admitted : r.processor.Admitted)
    (free : r.processor.pendingTransfer = none)
    (stores : ∀ k < n, ((step stepping)^[k] r).Stores stepping) (buffer : Word) :
    ∃ buffer', (fun q => (Processor.step stepping q).2)^[n] (r.processor.obliged r.supply buffer) =
      ((step stepping)^[n] r).processor.obliged ((step stepping)^[n] r).supply buffer' := by
  -- What the next step needs holds again after the host has done its part: the program is still
  -- the same, and nothing is pending.
  induction n generalizing r buffer with
  | zero => exact ⟨buffer, rfl⟩
  | succ n ih =>
      have first : r.Stores stepping := stores 0 n.succ_pos
      have settles := first.settles
      obtain ⟨standing, free'⟩ := Settles.standing settles
      have same := (congrArg Prod.fst standing).trans
        (congrArg Prod.fst (Processor.standing_step stepping r.processor))
      have admitted' : (r.step stepping).processor.Admitted := by
        change (r.step stepping).processor.program = r.processor.program at same
        rw [Processor.Admitted, same]
        exact admitted
      obtain ⟨buffer', stepped⟩ := admitted.step_obliged free stepping settles buffer
      rw [Function.iterate_succ_apply, Function.iterate_succ_apply, stepped]
      apply ih admitted' free' _ buffer'
      intro k below
      have later := stores (k + 1) (Nat.succ_lt_succ below)
      rwa [Function.iterate_succ_apply] at later

/-- A run in which refused transfers are completed by the host goes like the run with a device that
accepts them all, if the stores of the completed transfers do not fault. -/
theorem step_transparent (stepping : Bool) (n : Nat) (r : Served δ)
    (admitted : r.processor.Admitted) (free : r.processor.pendingTransfer = none)
    (stores : ∀ k < n, ((step stepping)^[k] r).Stores stepping) (buffer : Word) :
    let served := ((step stepping)^[n] r).processor
    let accepted :=
      (fun q => (Processor.step stepping q).2)^[n] (r.processor.obliged r.supply buffer)
    accepted.registers = served.registers ∧ accepted.flags = served.flags ∧
      accepted.memory = served.memory ∧ accepted.nextInstruction = served.nextInstruction := by
  obtain ⟨buffer', same⟩ := iterate_obliged stepping n admitted free stores buffer
  intro served accepted
  change accepted = served.obliged _ buffer' at same
  rw [same]
  exact ⟨rfl, rfl, rfl, rfl⟩

theorem step_transparent_rep_ins :
    let p : Processor Script := (Processor.new 16 { inputs := [some 7, none] } default).load
      #[{ op := .rep }, { op := .port (.ins .byte) }]
    let r : Served Script := ⟨(p.setReg .ecx 2).setReg .edi 1024, fun _ => 9⟩
    let accepted :=
      (fun q => (Processor.step false q).2)^[2] (r.processor.obliged r.supply 0)
    r.processor.Admitted ∧ r.processor.pendingTransfer = none ∧
      (∀ k < 2, ((step false)^[k] r).Stores false) ∧
      accepted.registers = ((step false)^[2] r).processor.registers := by
  intro p r accepted
  have admitted : r.processor.Admitted := by
    intro i mem
    have either : i = { op := .rep } ∨ i = { op := .port (.ins .byte) } := by
      simpa [r, p, Processor.load, Processor.resetExecution, Processor.setReg] using mem
    rcases either with rfl | rfl <;> exact ⟨(none, none), rfl⟩
  have stores : ∀ k < 2, ((step false)^[k] r).Stores false := by
    intro k below
    obtain rfl | rfl : k = 0 ∨ k = 1 := by omega
    · change Except.isOk _ = true
      decide +kernel
    · change Except.isOk _ = true
      decide +kernel
  exact ⟨admitted, rfl, stores, (step_transparent false 2 r admitted rfl stores 0).1⟩

end Served

end ReducedX86
