import ReducedX86.Device.Script
import ReducedX86.Proofs.Device.Board
import ReducedX86.Proofs.Machine.Consistency
import ReducedX86.Proofs.Machine.History
import ReducedX86.Proofs.Processor.Equipment

/-!
A machine executes instructions only when it is asked to.

A machine rests when it neither runs nor is marked to go on. Timers, requests and completed
transfers then take no step, whatever their order, and a machine that rests goes on resting until
the host runs or steps it again. Every way in which a run ends for good leads to rest.
-/
namespace ReducedX86

-- Two machines are compared field by field; what is in the registers need not be looked into.
attribute [local irreducible] RegisterFile.set

variable {δ : Type}

/-- The device does not ask for a reset. -/
def PortDevice.Calm [PortDevice δ] (device : δ) : Prop :=
  (PortDevice.takeResetRequest device).1 = false

/-- A device that asks for a reset only after an exchange, and once. -/
class PortDevice.AsksOnExchange (δ : Type) [PortDevice δ] : Prop where
  calm_taken (device : δ) : Calm (takeResetRequest device).2
  calm_poll {device : δ} (now : Time) : Calm device → Calm (poll device now).2
  calm_reset (device : δ) (now : Reading) : Calm device → Calm (reset device now)

instance : PortDevice.AsksOnExchange Script where
  calm_taken _ := rfl
  calm_poll _ calm := calm
  calm_reset _ _ calm := calm

instance : PortDevice.AsksOnExchange Board where
  calm_taken _ := rfl
  calm_poll {b} now calm := (b.resetRequested_poll now).trans calm
  calm_reset _ _ _ := rfl

namespace Processor

/-- What a program works on: registers, data memory, flags and the next instruction. -/
def architecture (p : Processor δ) : RegisterFile × Memory × Flags × Word :=
  (p.registers, p.memory, p.flags, p.nextInstruction)

/-- The completion of a transfer works on nothing else. -/
theorem architecture_resumeTransfer {p q : Processor δ} (same : q.architecture = p.architecture)
    (pending : q.pendingTransfer = p.pendingTransfer) (buffer : Word) :
    (q.filled buffer).resumeTransfer.2.architecture =
      (p.filled buffer).resumeTransfer.2.architecture := by
  simp only [architecture, Prod.mk.injEq] at same
  obtain ⟨registers, memory, flags, nextInstruction⟩ := same
  simp only [resumeTransfer, filled, pending]
  cases p.pendingTransfer with
  | none => simp only [architecture, registers, memory, flags, nextInstruction]
  | some t =>
      cases t with
      | input target size =>
          simp only [architecture, setReg, registers, memory, flags, nextInstruction]
      | inputString size =>
          simp only [Execution.writeMemory, EStateM.run, reg, registers, memory]
          cases p.memory.writeFault? (p.registers.get .edi) size with
          | some f =>
              simp only [architecture, recordFault, flags, nextInstruction]
          | none =>
              simp only [architecture, advance, setReg, reg, flags, nextInstruction]
      | output pointer size =>
          cases pointer <;>
            simp only [architecture, advance, setReg, reg, registers, memory, flags,
              nextInstruction]

/-- What a program works on is as it was, apart from the completion of a pending transfer. -/
inductive Idles (p q : Processor δ) : Prop
  | unchanged (same : q.architecture = p.architecture)
      (pending : q.pendingTransfer = p.pendingTransfer) : Idles p q
  | completed (buffer : Word) (waited : p.pendingTransfer.isSome)
      (same : q.architecture = (p.filled buffer).resumeTransfer.2.architecture)
      (ended : q.pendingTransfer = none) : Idles p q

theorem Idles.trans {p q r : Processor δ} (first : p.Idles q) (second : q.Idles r) : p.Idles r := by
  cases first with
  | unchanged same pending =>
      cases second with
      | unchanged same' pending' => exact .unchanged (same'.trans same) (pending'.trans pending)
      | completed buffer waited same' ended =>
          rw [pending] at waited
          rw [architecture_resumeTransfer same pending] at same'
          exact .completed buffer waited same' ended
  | completed buffer waited same ended =>
      cases second with
      | unchanged same' pending' =>
          exact .completed buffer waited (same'.trans same) (pending'.trans ended)
      | completed buffer' waited' =>
          rw [ended] at waited'
          cases waited'

end Processor

namespace Machine

open PortDevice

/-- The machine neither runs nor is marked to go on. -/
structure Resting (m : Machine δ) : Prop where
  running : m.running = false
  continues : m.continues = false

theorem Idle.resting {m : Machine δ} (h : m.Idle) : m.Resting := ⟨h.running, h.continues⟩

/-- The call returns, and takes a resting machine to a resting one however it ends. -/
def KeepsResting {α : Type} (x : MachineCall δ α) : Prop :=
  ∀ m, m.Resting → Ends x (fun _ m' => m'.Resting) (fun _ m' => m'.Resting) False m

section Guarded

variable {m : Machine δ}

theorem Resting.reportFaults (h : m.Resting) : m.reportFaults.Resting := by
  obtain ⟨observers, told⟩ := reportFaults_eq m
  rw [told]
  exact ⟨h.running, h.continues⟩

theorem addVariable_keepsResting (d : Declaration) : KeepsResting (δ := δ) (addVariable d) := by
  intro m resting
  rw [ends_addVariable]
  refine ⟨fun _ => resting, fun _ => ?_⟩
  split <;> exact ⟨resting.running, resting.continues⟩

theorem addVariables_keepsResting (ds : List Declaration) :
    KeepsResting (δ := δ) (addVariables ds) :=
  fun _ resting => ends_addVariables addVariable_keepsResting ds resting

theorem removeVariable_keepsResting (name : String) :
    KeepsResting (δ := δ) (removeVariable name) := by
  intro m resting
  rw [ends_removeVariable]
  refine ⟨fun _ => resting, fun _ => ?_⟩
  split <;> exact ⟨resting.running, resting.continues⟩

theorem stop_keepsResting : KeepsResting (δ := δ) stop := by
  intro m resting
  rw [ends_stop]
  exact ⟨fun _ => resting, fun _ => ⟨fun _ => resting, fun _ => ⟨fun _ => resting, fun _ =>
    ⟨fun _ => ⟨rfl, rfl⟩, fun _ => resting⟩⟩⟩⟩

end Guarded

variable [PortDevice δ] {m : Machine δ}

theorem reset_resting (m : Machine δ) : m.reset.2.Resting :=
  (reset_idle m).resting

theorem Resting.takeResetRequest (h : m.Resting) : m.takeResetRequest.2.Resting := by
  rcases takeResetRequest_eq m with ⟨m', taken⟩ | ⟨device, taken⟩
  · rw [taken]
    exact reset_resting m'
  · rw [taken]
    exact ⟨h.running, h.continues⟩

theorem assemble_keepsResting (source : String) : KeepsResting (δ := δ) (assemble source) := by
  intro m resting
  rw [ends_assemble]
  refine ⟨fun _ => resting, fun _ => ?_⟩
  split
  · exact ((reset_idle _).edit _ _ _ _).resting
  · rw [unloaded]
    exact ⟨resting.running, resting.continues⟩

/-- A request ends the halt of a resting machine, and nothing goes on. -/
theorem Resting.wake (h : m.Resting) : Leads m.wake Resting False ∧ m.wakeSteps = [] := by
  simp only [Machine.wake, wakeSteps, h.continues, Bool.false_eq_true, ↓reduceIte, ite_self,
    and_true]
  split
  · exact h
  · split
    · exact ⟨h.running, rfl⟩
    · exact h

omit [PortDevice δ] in
theorem Resting.requested (h : m.Resting) (number : Word) : (m.requested number).Resting :=
  ⟨h.running, h.continues⟩

theorem requestInterrupt_keepsResting (number : Word) :
    KeepsResting (δ := δ) (requestInterrupt number) := by
  intro m resting
  rw [ends_requestInterrupt]
  exact ⟨fun _ => resting, fun _ => (resting.requested number).wake.1⟩

theorem Resting.requestSteps (h : m.Resting) (number : Word) : requestSteps number m = [] := by
  rw [requestSteps_eq]
  split
  · exact (h.requested number).wake.2
  · rfl

theorem Resting.afterResume (h : m.Resting) : Leads m.afterResume Resting False := by
  rw [Machine.afterResume, h.continues]
  split
  · exact ⟨h.running, rfl⟩
  · split
    · exact ⟨h.running, rfl⟩
    · exact h

theorem resumeTransfer_keepsResting : KeepsResting (δ := δ) resumeTransfer := by
  intro m resting
  rw [ends_resumeTransfer]
  refine ⟨fun _ => resting, fun _ => ?_⟩
  have resumed : ({ m with processor := m.processor.resumeTransfer.2 } : Machine δ).Resting :=
    ⟨resting.running, resting.continues⟩
  have ended := resumed.reportFaults.afterResume
  cases m.processor.resumeTransfer.1 with
  | error f => exact ended
  | ok done => exact ended

theorem Resting.resumeSteps (h : m.Resting) : m.resumeSteps = [] := by
  have resumed : ({ m with processor := m.processor.resumeTransfer.2 } : Machine δ).Resting :=
    ⟨h.running, h.continues⟩
  rw [Machine.resumeSteps]
  simp only [resumed.reportFaults.continues, Bool.false_eq_true, ↓reduceIte, ite_self]

theorem Resting.requestAll (h : m.Resting) (numbers : List UInt8) :
    Leads (requestAll m numbers) Resting False ∧ requestAllSteps numbers m = [] := by
  induction numbers generalizing m with
  | nil => exact ⟨h, rfl⟩
  | cons number rest ih =>
      have requested := leads_after (requestInterrupt_keepsResting (UInt32.ofNat number.toNat) m h)
      obtain ⟨m', ran, resting⟩ := requested.exists
      rw [requestAll_cons, requestAllSteps, h.requestSteps, List.nil_append, ran]
      exact ih resting

theorem Resting.goOn (h : m.Resting) (now : Time) :
    Leads (m.goOn now) Resting False ∧ m.goOnSteps now = [] := by
  simp only [Machine.goOn, goOnSteps, h.running, Bool.false_and, Bool.false_eq_true, ↓reduceIte,
    ite_self, and_true]
  split
  · exact ⟨rfl, h.continues⟩
  · exact h

theorem Resting.tick (h : m.Resting) (now : Time) :
    Leads (m.tick now) Resting False ∧ m.tickSteps now = [] := by
  have polls : (m.polled now).Resting := ⟨h.running, h.continues⟩
  obtain ⟨requested, none⟩ := polls.requestAll (PortDevice.poll m.processor.device now).1
  obtain ⟨m', ran, resting⟩ := requested.exists
  rw [tick_eq, tickSteps, none, ran]
  exact resting.takeResetRequest.goOn now

/-- The calls that ask for instructions to be executed. -/
def Call.Starts : Call → Prop
  | .run | .step => True
  | _ => False

/-- Until it is asked to, a resting machine takes no step, and goes on resting. -/
theorem Resting.perform (h : m.Resting) {c : Call} (other : ¬ c.Starts) :
    Leads (m.perform c) Resting False ∧ m.stepsOf c = [] := by
  cases c with
  | addVariable d => exact ⟨leads_after (addVariable_keepsResting d m h), rfl⟩
  | addVariables ds => exact ⟨leads_after (addVariables_keepsResting ds m h), rfl⟩
  | removeVariable name => exact ⟨leads_after (removeVariable_keepsResting name m h), rfl⟩
  | assemble source => exact ⟨leads_after (assemble_keepsResting source m h), rfl⟩
  | run | step => exact absurd trivial other
  | stop => exact ⟨leads_after (stop_keepsResting m h), rfl⟩
  | reset => exact ⟨reset_resting m, rfl⟩
  | requestInterrupt number =>
      exact ⟨leads_after (requestInterrupt_keepsResting number m h), h.requestSteps number⟩
  | resumeTransfer => exact ⟨leads_after (resumeTransfer_keepsResting m h), h.resumeSteps⟩
  | tick now => exact h.tick now
  | setBuffer value | attach | detach number => exact ⟨⟨h.running, h.continues⟩, rfl⟩

omit [PortDevice δ] in
theorem Resting.attended (h : m.Resting) (clock : Feed Reading) (patience : Nat) :
    (m.attended clock patience).Resting :=
  ⟨h.running, h.continues⟩

theorem Resting.history (h : m.Resting) (events : List Event)
    (others : ∀ e ∈ events, ¬ e.call.Starts) :
    Leads (m.history events) Resting False ∧ m.stepsAlong events = [] := by
  induction events generalizing m with
  | nil => exact ⟨h, rfl⟩
  | cons e rest ih =>
      obtain ⟨resting, none⟩ :=
        (h.attended e.clock e.patience).perform (others e List.mem_cons_self)
      obtain ⟨m', met, resting⟩ := resting.exists
      have met : m.meet e = some m' := met
      rw [Machine.history, stepsAlong, none, List.nil_append, met]
      exact ih resting fun e' later => others e' (List.mem_cons_of_mem e later)

/-! How a machine comes to rest -/

omit [PortDevice δ] in
theorem Consistent.resting_of_stepPending (h : m.Consistent) (pending : m.stepPending) :
    m.Resting where
  running := by
    have waits := h.waits_iff.mp (.inl pending)
    refine Bool.eq_false_iff.mpr fun running => ?_
    simp [h.running_free running] at waits
  continues := Bool.eq_false_iff.mpr fun continues => h.step_or_run ⟨pending, continues⟩

omit [PortDevice δ] in
theorem Consistent.resting_of_stop (h : m.Consistent) {m' : Machine δ}
    (stopped : stop.on m = some (.ok (), m')) : m'.Resting := by
  have ends : Ends stop (fun _ m' => m'.Resting) (fun _ _ => True) True m := by
    rw [ends_stop]
    refine ⟨fun _ => trivial, fun _ => ⟨fun _ => trivial, fun awake => ⟨fun _ => trivial,
      fun complete => ⟨fun _ => ⟨rfl, rfl⟩, fun stands => ⟨Bool.eq_false_iff.mpr stands, ?_⟩⟩⟩⟩⟩
    refine Bool.eq_false_iff.mpr fun continues => ?_
    rcases h.waits_iff.mp (.inr continues) with halted | pending
    · exact awake halted
    · exact complete pending
  exact ends.of_ok stopped

/-- A run that goes on later has met no fault. -/
def Faultless (m : Machine δ) : Prop := m.continues → m.processor.fault = none

theorem Faultless.adjust {m' : Machine δ} (did : Adjusts m m') (h : m.Faultless) :
    m'.Faultless := by
  intro continues
  cases did with
  | told | attended | polled | asked => exact h continues
  | marked running stepPending continues' resumeAt faultless =>
      rcases faultless continues with before | none
      · exact h before
      · exact none
  | edited fault faultLog halted debugRequest interruptQueue buffer now forgotten =>
      rcases forgotten with forgotten | same
      · exact forgotten
      · exact same.trans (h continues)
  | resumed => cases continues
  | loaded => rfl
  | reset =>
      rw [(reset_idle m).continues] at continues
      cases continues

theorem Faultless.of_path {m' : Machine δ} {steps : List (Stepping δ)} (path : Path m steps m')
    (h : m.Faultless) : m'.Faultless := by
  apply path.preserves h Faultless.adjust
  intro m stepping free alone _ continues
  exact absurd continues (Bool.eq_false_iff.mp alone)

omit [PortDevice δ] in
theorem Faultless.resting (h : m.Faultless) (consistent : m.Consistent)
    (faulted : m.processor.fault.isSome) : m.Resting where
  running := by
    refine Bool.eq_false_iff.mpr fun running => ?_
    rw [(consistent.running_free running).2.2] at faulted
    cases faulted
  continues := by
    refine Bool.eq_false_iff.mpr fun continues => ?_
    rw [h continues] at faulted
    cases faulted

/-- If one of the steps met a breakpoint, the machine rests. -/
def RestsAtBreak (steps : List (Stepping δ)) (m : Machine δ) : Prop :=
  ∀ s ∈ steps, (s.2.step s.1).2.debugRequest → m.Resting

theorem RestsAtBreak.nil : RestsAtBreak [] m := by
  intro s taken
  cases taken

theorem RestsAtBreak.append {steps more : List (Stepping δ)} (first : RestsAtBreak steps m)
    (second : RestsAtBreak more m) : RestsAtBreak (steps ++ more) m := by
  intro s taken broke
  rcases List.mem_append.mp taken with taken | taken
  · exact first s taken broke
  · exact second s taken broke

/-- The machine that may come about rests if one of the steps met a breakpoint. -/
def BreaksToRest (steps : List (Stepping δ)) (result : Option (Machine δ)) : Prop :=
  Leads result (RestsAtBreak steps) True

theorem BreaksToRest.nil {result : Option (Machine δ)} : BreaksToRest [] result :=
  leads_of_forall result fun _ => RestsAtBreak.nil

theorem BreaksToRest.bind {steps : List (Stepping δ)} {result : Option (Machine δ)}
    {more : Machine δ → List (Stepping δ)} {next : Machine δ → Option (Machine δ)}
    (first : BreaksToRest steps result)
    (second : ∀ m', result = some m' → BreaksToRest (more m') (next m'))
    (keeps : ∀ m' : Machine δ, m'.Resting → Leads (next m') Resting True) :
    BreaksToRest (steps ++ result.elim [] more) (result.bind next) := by
  cases result with
  | none => trivial
  | some m' =>
      have rests := second m' rfl
      rw [Option.elim_some, Option.bind_some]
      cases came : next m' with
      | none => trivial
      | some last =>
          rw [came] at rests
          refine RestsAtBreak.append (fun s taken broke => ?_) rests
          exact (keeps m' (first s taken broke)).of_some came

omit [PortDevice δ] in
/-- A breakpoint ends a run as if it had halted by itself, with nothing to wait for. -/
theorem finishRun_resting (settled : m.processor.control.Settled)
    (broke : m.processor.debugRequest) : m.finishRun.Resting := by
  have free : m.processor.pendingTransfer = none :=
    settled.halted_or_pending (settled.halted_of_debugRequest broke)
  refine ⟨rfl, ?_⟩
  simp [finishRun, clearDebugRequest, broke, isHalted, hasPendingTransfer, free, notify]

omit [PortDevice δ] in
theorem not_canContinue_of_debugRequest {p : Processor δ} (settled : p.control.Settled)
    (broke : p.debugRequest) : p.canContinue = false := by
  have halted : p.halted = true := settled.halted_of_debugRequest broke
  rw [Processor.canContinue, halted]
  rfl

/-- A breakpoint ends the loop at its next turn, and the machine then rests. -/
theorem runTurns_breaksToRest (started : Time) (turns : Nat) (count : Word)
    (settled : m.processor.control.Settled) :
    BreaksToRest (loopSteps started turns count m) (runTurns started turns count m) := by
  refine And.right <| loop_induction
    (P := fun m steps result => m.processor.control.Settled →
      (m.processor.debugRequest → Leads result Resting True) ∧ BreaksToRest steps result)
    ?broken ?finished ?next started turns count m settled
  case broken => exact fun _ _ => ⟨fun _ => trivial, trivial⟩
  case finished =>
    intro m m' steps turned settled
    cases turned with
    | ended rests => exact ⟨finishRun_resting settled, RestsAtBreak.nil⟩
    | paused going now clock resumeAt =>
        refine ⟨fun broke => ?_, RestsAtBreak.nil⟩
        rw [not_canContinue_of_debugRequest settled broke] at going
        cases going
    | reset going now clock observers told asked =>
        have rests : m'.Resting := by
          rcases takeResetRequest_eq ((m.shown now clock).advanced false m.running observers) with
            ⟨last, taken⟩ | ⟨device, taken⟩
          · rw [taken] at asked
            cases asked
            exact reset_resting last
          · rw [taken] at asked
            cases asked
        exact ⟨fun _ => rests, fun _ _ _ => rests⟩
  case next =>
    intro m count m' steps more result turned rest settled
    cases turned with
    | stepped going now clock observers told count unasked =>
        refine ⟨fun broke => ?_, ?_⟩
        · rw [not_canContinue_of_debugRequest settled broke] at going
          cases going
        have ready : (m.shown now clock).processor.control.Ready := ready_of_canContinue settled going
        have settled' := Processor.step_settled false _ ready
        rcases takeResetRequest_eq ((m.shown now clock).advanced false m.running observers) with
          ⟨last, taken⟩ | ⟨device, taken⟩
        · rw [taken] at unasked
          cases unasked
        · rw [taken] at unasked
          cases unasked
          obtain ⟨broken, rests⟩ := rest
            ⟨settled'.halted_or_pending, settled'.halted_of_debugRequest, settled'.fault_alone⟩
          cases result with
          | none => trivial
          | some last =>
              refine RestsAtBreak.append (fun s taken broke => ?_) rests
              cases List.mem_singleton.mp taken
              exact broken broke

theorem runBatch_breaksToRest
    (ready : ({ m.processor with fault := none } : Processor δ).control.Ready) :
    BreaksToRest m.batch m.runBatch := by
  apply runTurns_breaksToRest
  rw [launched]
  split <;> exact ready.settled

theorem stepOnce_restsAtBreak
    (ready : ({ m.processor with fault := none } : Processor δ).control.Ready) :
    RestsAtBreak [(true, m.poised.processor)] m.stepOnce := by
  intro s took broke
  cases List.mem_singleton.mp took
  have settled := Processor.step_settled true m.poised.processor ready
  obtain ⟨observers, told⟩ := reportFaults_advanced m.poised true
  rw [stepOnce_eq told]
  rcases takeResetRequest_eq (m.poised.advanced true false observers) with
    ⟨m', taken⟩ | ⟨device, taken⟩
  · rw [taken]
    exact reset_resting m'
  · rw [taken]
    simp only [finishStep, clearDebugRequest]
    split <;> exact ⟨rfl, rfl⟩

theorem wake_breaksToRest (awake : m.processor.halted = false)
    (unbroken : m.processor.debugRequest = false) : BreaksToRest m.wakeSteps m.wake := by
  rw [wakeSteps, wake]
  split
  · exact .nil
  · rename_i waits
    have free : m.processor.pendingTransfer = none := by simpa [hasPendingTransfer] using waits
    split
    · exact .nil
    · split
      · simp only
        split
        · exact .nil
        · exact runBatch_breaksToRest ⟨awake, unbroken, rfl, free⟩
      · exact .nil

theorem requestInterrupt_breaksToRest (number : Word) (consistent : m.Consistent) :
    BreaksToRest (m.requestSteps number) (after (requestInterrupt number) m) := by
  rw [after_requestInterrupt, requestSteps_eq]
  split
  · exact wake_breaksToRest rfl consistent.debugRequest
  · exact .nil

theorem resumeTransfer_breaksToRest (consistent : m.Consistent) :
    BreaksToRest m.resumeSteps (after resumeTransfer m) := by
  obtain ⟨fault, faultLog, control⟩ := Processor.control_resumeTransfer m.processor
  apply leads_after
  rw [ends_resumeTransfer, resumeSteps]
  refine ⟨fun free => ?_, fun waits => ?_⟩
  · rw [if_neg (Bool.eq_false_iff.mp free)]
    exact .nil
  · have awake : m.processor.halted = false :=
      Bool.eq_false_iff.mpr fun halted => consistent.halted_or_pending ⟨halted, waits⟩
    rw [if_pos waits]
    obtain ⟨observers, told⟩ := reportFaults_eq { m with processor := m.processor.resumeTransfer.2 }
    simp only [told]
    generalize m.processor.resumeTransfer = resumed at control
    have ready : ({ resumed.2 with fault := none, faultLog := [] } : Processor δ).control.Ready :=
      ⟨(congrArg Control.halted control).trans awake,
        (congrArg Control.debugRequest control).trans consistent.debugRequest, rfl,
        congrArg Control.pendingTransfer control⟩
    have whole : BreaksToRest
        (if m.stepPending then [] else if resumed.2.fault.isSome then []
          else if m.continues then
            ({ m with processor := { resumed.2 with faultLog := [] }, observers } : Machine δ).batch
          else [])
        ({ m with processor := { resumed.2 with faultLog := [] }, observers } :
          Machine δ).afterResume := by
      rw [afterResume]
      split
      · exact .nil
      · split
        · exact .nil
        · split
          · exact runBatch_breaksToRest ready
          · exact .nil
    cases resumed.1 with
    | error f => exact whole
    | ok done => exact whole

theorem requestAll_breaksToRest (numbers : List UInt8) (consistent : m.Consistent) :
    BreaksToRest (requestAllSteps numbers m) (requestAll m numbers) := by
  induction numbers generalizing m with
  | nil => exact .nil
  | cons number rest ih =>
      have keeps := leads_after
        (requestInterrupt_keepsConsistent (UInt32.ofNat number.toNat) m consistent)
      rw [requestAll_cons, requestAllSteps]
      refine (requestInterrupt_breaksToRest _ consistent).bind (fun m' ran => ?_) fun m' resting => ?_
      · exact ih (keeps.of_some ran)
      · exact (resting.requestAll rest).1.mono (fun _ => id) False.elim

theorem goOn_breaksToRest (consistent : m.Consistent) (now : Time) :
    BreaksToRest (m.goOnSteps now) (m.goOn now) := by
  rw [goOn.eq_def, goOnSteps]
  split
  · rename_i elapsed
    simp only
    split
    · exact runBatch_breaksToRest (consistent.startable_of_elapsed elapsed).2.ready
    · exact .nil
  · exact .nil

theorem tick_breaksToRest (consistent : m.Consistent) (now : Time) :
    BreaksToRest (m.tickSteps now) (m.tick now) := by
  have agrees : (m.polled now).Consistent := consistent.exchanged _
  have keeps := requestAll_consistent (PortDevice.poll m.processor.device now).1 agrees
  rw [tick_eq, tickSteps]
  refine (requestAll_breaksToRest _ agrees).bind (fun m' ran => ?_) fun m' resting => ?_
  · exact goOn_breaksToRest (takeResetRequest_consistent (keeps.of_some ran)) now
  · exact (resting.takeResetRequest.goOn now).1.mono (fun _ => id) False.elim

omit [PortDevice δ] in
theorem Consistent.ready (consistent : m.Consistent)
    (starts : m.compiled && !m.isRunningOrWaiting) :
    ({ m.processor with fault := none } : Processor δ).control.Ready := by
  obtain ⟨compiled, quiet⟩ := Bool.and_eq_true_iff.mp starts
  exact ((consistent.idle (Bool.not_eq_true' _ |>.mp quiet)).startable compiled).ready

/-- If a step of a call met a breakpoint, the machine rests. -/
theorem perform_breaksToRest (consistent : m.Consistent) (c : Call) :
    BreaksToRest (m.stepsOf c) (m.perform c) := by
  cases c with
  | run =>
      rw [perform, after_run, stepsOf]
      split
      · rename_i starts
        exact runBatch_breaksToRest (consistent.ready starts)
      · exact .nil
  | step =>
      rw [perform, after_step, stepsOf]
      split
      · rename_i starts
        exact stepOnce_restsAtBreak (consistent.ready starts)
      · exact .nil
  | requestInterrupt number => exact requestInterrupt_breaksToRest number consistent
  | resumeTransfer => exact resumeTransfer_breaksToRest consistent
  | tick now => exact tick_breaksToRest consistent now
  | _ => exact .nil

/-! What is left alone -/

variable [AsksOnExchange δ]

/-- The device of the machine does not ask for a reset. -/
def Calm (m : Machine δ) : Prop := PortDevice.Calm m.processor.device

theorem Calm.adjust {m' : Machine δ} (did : Adjusts m m') (h : m.Calm) : m'.Calm := by
  cases did with
  | told | attended | marked | edited | loaded => exact h
  | polled now => exact AsksOnExchange.calm_poll now h
  | asked => exact AsksOnExchange.calm_taken _
  | resumed =>
      have same := congrArg Equipment.device m.processor.equipment_resumeTransfer
      have same : m.processor.resumeTransfer.2.device = m.processor.device := same
      rw [Calm, same]
      exact h
  | reset =>
      rw [Machine.reset]
      simp only
      split <;> exact AsksOnExchange.calm_reset _ _ h

/-- Whenever a host looks at a machine, its device has no wish for a reset left. -/
theorem Calm.of_path {m' : Machine δ} {steps : List (Stepping δ)} (path : Path m steps m')
    (h : m.Calm) : m'.Calm :=
  path.preserves h Calm.adjust fun _ _ _ _ => AsksOnExchange.calm_taken _

/-- The calls that neither start a program nor change what it works on. -/
def Call.Passive : Call → Prop
  | .tick _ | .requestInterrupt _ | .resumeTransfer | .setBuffer _ | .stop | .attach | .detach _ =>
      True
  | _ => False

/-- It comes to a machine that has at most completed a transfer. -/
abbrev Idles (m : Machine δ) (result : Option (Machine δ)) : Prop :=
  Leads result (fun m' => m.processor.Idles m'.processor) False

omit [AsksOnExchange δ] in
theorem Resting.idles_requestInterrupt (h : m.Resting) (number : Word) :
    m.Idles (after (requestInterrupt number) m) := by
  apply leads_after
  rw [ends_requestInterrupt]
  refine ⟨fun _ => .unchanged rfl rfl, fun _ => ?_⟩
  simp only [Machine.wake, (h.requested number).continues, Bool.false_eq_true, ↓reduceIte]
  split
  · exact .unchanged rfl rfl
  · split <;> exact .unchanged rfl rfl

omit [AsksOnExchange δ] in
theorem Resting.idles_requestAll (h : m.Resting) (numbers : List UInt8) :
    m.Idles (Machine.requestAll m numbers) := by
  induction numbers generalizing m with
  | nil => exact .unchanged rfl rfl
  | cons number rest ih =>
      have rests := leads_after (requestInterrupt_keepsResting (UInt32.ofNat number.toNat) m h)
      rw [requestAll_cons]
      refine (rests.and (h.idles_requestInterrupt _)).bind ?_ id
      rintro m' ⟨resting, idles⟩
      exact (ih resting).mono (fun _ => idles.trans) id

omit [AsksOnExchange δ] in
theorem Calm.idles_takeResetRequest (h : m.Calm) :
    m.processor.Idles m.takeResetRequest.2.processor := by
  have calm : (PortDevice.takeResetRequest m.processor.device).1 = false := h
  simp only [Machine.takeResetRequest, calm, Bool.false_eq_true, ↓reduceIte]
  exact .unchanged rfl rfl

omit [AsksOnExchange δ] in
theorem Resting.idles_goOn (h : m.Resting) (now : Time) : m.Idles (m.goOn now) := by
  rw [Machine.goOn.eq_def]
  simp only [h.running, Bool.false_and, Bool.false_eq_true, ↓reduceIte]
  split <;> exact .unchanged rfl rfl

theorem Resting.idles_tick (h : m.Resting) (calm : m.Calm) (now : Time) :
    m.Idles (m.tick now) := by
  have waiting : m.processor.Idles (m.polled now).processor := .unchanged rfl rfl
  have rests : (m.polled now).Resting := ⟨h.running, h.continues⟩
  have polls : (m.polled now).Calm := AsksOnExchange.calm_poll now calm
  obtain ⟨m', ran, resting, idles⟩ :=
    ((rests.requestAll (PortDevice.poll m.processor.device now).1).1.and
      (rests.idles_requestAll _)).exists
  have asked := (polls.of_path ((traces_requestAll _).of_some ran)).idles_takeResetRequest
  rw [tick_eq, ran]
  exact (resting.takeResetRequest.idles_goOn now).mono
    (fun _ => ((waiting.trans idles).trans asked).trans) id

omit [AsksOnExchange δ] in
theorem Resting.idles_afterResume (h : m.Resting) :
    Leads m.afterResume (fun m' => m'.processor = m.processor) False := by
  rw [Machine.afterResume, h.continues]
  split
  · rfl
  · split <;> rfl

omit [AsksOnExchange δ] in
theorem Resting.idles_resumeTransfer (h : m.Resting) : m.Idles (after resumeTransfer m) := by
  apply leads_after
  rw [ends_resumeTransfer]
  refine ⟨fun _ => .unchanged rfl rfl, fun waited => ?_⟩
  have ended := congrArg Equipment.pendingTransfer m.processor.equipment_resumeTransfer
  obtain ⟨observers, told⟩ := reportFaults_eq { m with processor := m.processor.resumeTransfer.2 }
  let resumed : Machine δ :=
    { m with processor := { m.processor.resumeTransfer.2 with faultLog := [] }, observers }
  have rests : resumed.Resting := ⟨h.running, h.continues⟩
  have completed : m.Idles resumed.afterResume := by
    refine rests.idles_afterResume.mono (fun m' same => ?_) id
    rw [same]
    exact .completed m.processor.buffer waited rfl ended
  simp only [told]
  cases m.processor.resumeTransfer.1 with
  | error f => exact completed
  | ok done => exact completed

/-- At rest, a passive call at most completes a transfer that was pending. -/
theorem Resting.idles_perform (h : m.Resting) (calm : m.Calm) {c : Call} (passive : c.Passive) :
    m.Idles (m.perform c) := by
  cases c with
  | tick now => exact h.idles_tick calm now
  | requestInterrupt number => exact h.idles_requestInterrupt number
  | resumeTransfer => exact h.idles_resumeTransfer
  | setBuffer value | attach | detach number => exact .unchanged rfl rfl
  | stop =>
      apply leads_after
      rw [ends_stop]
      have idles : m.processor.Idles m.processor := .unchanged rfl rfl
      exact ⟨fun _ => idles, fun _ => ⟨fun _ => idles, fun _ => ⟨fun _ => idles, fun _ =>
        ⟨fun _ => idles, fun _ => idles⟩⟩⟩⟩
  | _ => cases passive

theorem Call.Passive.not_starts {c : Call} (passive : c.Passive) : ¬ c.Starts := by
  cases c <;> first | exact id | cases passive

theorem Resting.idles_history (h : m.Resting) (calm : m.Calm) (events : List Event)
    (passive : ∀ e ∈ events, e.call.Passive) : m.Idles (m.history events) := by
  induction events generalizing m with
  | nil => exact .unchanged rfl rfl
  | cons e rest ih =>
      have here := passive e List.mem_cons_self
      have attended := h.attended e.clock e.patience
      have rests := (attended.perform here.not_starts).1
      have idles := attended.idles_perform calm here
      obtain ⟨m', met, resting, idles⟩ := (rests.and idles).exists
      have met : m.meet e = some m' := met
      rw [Machine.history, met]
      refine (ih resting (calm.of_path ((traces_meet e).of_some met)) fun e' later =>
        passive e' (List.mem_cons_of_mem e later)).mono (fun _ => ?_) id
      exact Processor.Idles.trans idles

/-- Instructions are executed only on request. A machine rests after a stop, a fault, a breakpoint or
a reset, and while a single step waits for an interrupt or a transfer. Whatever the host does then
other than to run or to step, its calls return and no step is taken; and if it does not reset,
assemble or declare either, then what the program works on stays as it is, apart from the completion
of the transfer that a single step waits for. -/
theorem executes_only_on_request {settings : Settings} {device : δ} {draws : Feed Word}
    {made m : Machine δ} (isNew : Machine.new settings device draws = .ok made)
    (calm : PortDevice.Calm device) {past : List Event} (led : made.history past = some m) :
    (∀ m', stop.on m = some (.ok (), m') → m'.Resting) ∧
      (m.processor.fault.isSome → m.Resting) ∧
      (∀ e m', m.meet e = some m' →
        RestsAtBreak ((m.attended e.clock e.patience).stepsOf e.call) m') ∧
      m.reset.2.Resting ∧
      (m.stepPending → m.Resting) ∧
      (m.Resting → ∀ events : List Event,
        ((∀ e ∈ events, ¬ e.call.Starts) →
          m.stepsAlong events = [] ∧ ∃ m', m.history events = some m' ∧ m'.Resting) ∧
        ((∀ e ∈ events, e.call.Passive) → ∃ m', m.history events = some m' ∧
          (m'.processor.architecture = m.processor.architecture ∨
            m.stepPending ∧ m.processor.pendingTransfer.isSome ∧
              ∃ buffer, m'.processor.architecture =
                (m.processor.filled buffer).resumeTransfer.2.architecture))) := by
  have consistent : m.Consistent :=
    consistent_of_reachable (Reachable.history (.new isNew) led)
  have start : made.Faultless ∧ made.Calm := by
    obtain rfl := eq_of_new isNew
    exact ⟨fun continues => absurd continues Bool.false_ne_true, calm⟩
  have path := (traces_history past).of_some led
  have faultless : m.Faultless := start.1.of_path path
  have calm : m.Calm := start.2.of_path path
  refine ⟨fun m' => consistent.resting_of_stop, faultless.resting consistent, ?breaks,
    reset_resting m, consistent.resting_of_stepPending, fun resting events => ⟨?others, ?passive⟩⟩
  case breaks =>
    intro e m' met
    have attended : (m.attended e.clock e.patience).Consistent :=
      consistent_of_reachable (.attended _ _ (Reachable.history (.new isNew) led))
    exact (perform_breaksToRest attended e.call).of_some met
  case others =>
    intro others
    obtain ⟨rests, none⟩ := resting.history events others
    exact ⟨none, rests.exists⟩
  case passive =>
    intro passive
    obtain ⟨m', ran, idles⟩ := (resting.idles_history calm events passive).exists
    refine ⟨m', ran, ?_⟩
    cases idles with
    | unchanged same => exact .inl same
    | completed buffer waited same =>
        have pending : m.stepPending := by
          rcases consistent.waits_iff.mpr (.inr waited) with pending | continues
          · exact pending
          · exact absurd continues (Bool.eq_false_iff.mp resting.continues)
        exact .inr ⟨pending, waited, buffer, same⟩

theorem executes_only_on_request_waiting_step :
    ∃ m : Machine Script, m.stepPending ∧ m.processor.pendingTransfer.isSome ∧ m.Resting ∧
      ∀ events : List Event, (∀ e ∈ events, ¬ e.call.Starts) → m.stepsAlong events = [] := by
  let fresh : Machine Script :=
    { processor := .new 16 {} default, settings := { memorySize := 16 } }
  have isNew : Machine.new { memorySize := 16 } {} default = .ok fresh := rfl
  let past : List Event := [⟨default, 0, .assemble "in al, 5"⟩, ⟨default, 0, .step⟩]
  have found : (fresh.history past).any fun m => m.stepPending && m.hasPendingTransfer := by
    decide +kernel
  obtain ⟨m, led, pending⟩ := (Option.any_eq_true _ _).mp found
  obtain ⟨pending, waits⟩ := Bool.and_eq_true_iff.mp pending
  obtain ⟨-, -, -, -, rests, alone⟩ := executes_only_on_request isNew rfl led
  exact ⟨m, pending, waits, rests pending,
    fun events others => (alone (rests pending) events).1 others |>.1⟩

end Machine

end ReducedX86
