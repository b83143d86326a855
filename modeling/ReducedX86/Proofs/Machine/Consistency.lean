import ReducedX86.Device.Script
import ReducedX86.Proofs.Execution.Control
import ReducedX86.Proofs.Machine.History

/-!
The flags of a machine and the conditions of its processor agree.

Between two calls a machine is idle, or waits for its next time slice, or waits for the host to end
a halt or a transfer; its flags tell which. Each call takes a consistent machine to a consistent
one. A run does so because the processor is settled after every step, so that at most one thing
ends a batch.
-/
namespace ReducedX86

namespace Machine

variable {δ : Type}

structure Consistent (m : Machine δ) : Prop where
  running_iff : m.running ↔ m.resumeAt.isSome
  running_free : m.running →
    m.isHalted = false ∧ m.hasPendingTransfer = false ∧ m.processor.fault = none
  halted_or_pending : ¬ (m.isHalted ∧ m.hasPendingTransfer)
  step_or_run : ¬ (m.stepPending ∧ m.continues)
  waits_iff : m.stepPending ∨ m.continues ↔ m.isHalted ∨ m.hasPendingTransfer
  debugRequest : m.processor.debugRequest = false
  faultLog : m.processor.faultLog = []
  compiled : m.running ∨ m.isHalted ∨ m.hasPendingTransfer → m.compiled

/-- The machine neither runs nor waits. -/
structure Idle (m : Machine δ) : Prop where
  running : m.running = false
  stepPending : m.stepPending = false
  continues : m.continues = false
  resumeAt : m.resumeAt = none
  halted : m.processor.halted = false
  pendingTransfer : m.processor.pendingTransfer = none
  debugRequest : m.processor.debugRequest = false
  faultLog : m.processor.faultLog = []

/-- A batch of steps may start. -/
structure Startable (m : Machine δ) : Prop where
  compiled : m.compiled = true
  halted : m.processor.halted = false
  pendingTransfer : m.processor.pendingTransfer = none
  debugRequest : m.processor.debugRequest = false
  faultLog : m.processor.faultLog = []

/-- The machine is in a batch, after one of its steps or before the first. -/
structure InBatch (m : Machine δ) : Prop where
  running : m.running = true
  stepPending : m.stepPending = false
  continues : m.continues = false
  resumeAt : m.resumeAt = none
  compiled : m.compiled = true
  settled : m.processor.control.Settled
  faultLog : m.processor.faultLog = []

variable {m : Machine δ}

theorem Consistent.exchanged (h : m.Consistent) (device : δ) :
    ({ m with processor := { m.processor with device } } : Machine δ).Consistent :=
  ⟨h.running_iff, h.running_free, h.halted_or_pending, h.step_or_run, h.waits_iff, h.debugRequest,
    h.faultLog, h.compiled⟩

theorem Idle.consistent (h : m.Idle) : m.Consistent := by
  obtain ⟨running, stepPending, continues, resumeAt, halted, pendingTransfer, debugRequest,
    faultLog⟩ := h
  constructor <;> simp_all [isHalted, hasPendingTransfer]

theorem Consistent.idle (h : m.Consistent) (quiet : m.isRunningOrWaiting = false) : m.Idle := by
  obtain ⟨running_iff, running_free, halted_or_pending, step_or_run, waits_iff, debugRequest,
    faultLog, compiled⟩ := h
  simp only [isRunningOrWaiting, Bool.or_eq_false_iff] at quiet
  constructor <;> simp_all [isHalted, hasPendingTransfer]

/-- Neither the program nor its variables nor the observers decide whether a machine is idle. -/
theorem Idle.edit (h : m.Idle) (compiled : Bool) (table : VariableTable) (artifacts : Artifacts)
    (observers : Observers) :
    ({ m with compiled, table, artifacts, observers } : Machine δ).Idle :=
  ⟨h.running, h.stepPending, h.continues, h.resumeAt, h.halted, h.pendingTransfer,
    h.debugRequest, h.faultLog⟩

theorem Idle.startable (h : m.Idle) (compiled : m.compiled) : m.Startable :=
  ⟨compiled, h.halted, h.pendingTransfer, h.debugRequest, h.faultLog⟩

/-- A start forgets the last fault. -/
theorem Startable.ready (h : m.Startable) :
    ({ m.processor with fault := none } : Processor δ).control.Ready :=
  ⟨h.halted, h.debugRequest, rfl, h.pendingTransfer⟩

/-- Ending the halt of a breakpoint leaves at most one thing that the host has to end. -/
theorem clearDebugRequest_eq (settled : m.processor.control.Settled) :
    ∃ p, m.clearDebugRequest = { m with processor := p } ∧ p.control.Settled ∧
      p.debugRequest = false ∧ p.faultLog = m.processor.faultLog := by
  rw [clearDebugRequest]
  split
  · rename_i requested
    have pending := settled.halted_or_pending (settled.halted_of_debugRequest requested)
    refine ⟨_, rfl, ?_, rfl, rfl⟩
    exact ⟨fun _ => pending, fun asked => absurd asked Bool.false_ne_true, fun _ => ⟨rfl, pending⟩⟩
  · rename_i quiet
    exact ⟨m.processor, rfl, settled, Bool.eq_false_iff.mpr quiet, rfl⟩

/-- A run that ends goes on later if it waits, and it does not wait after a fault. -/
theorem finishRun_consistent (h : m.InBatch) : m.finishRun.Consistent := by
  obtain ⟨running, stepPending, continues, resumeAt, compiled, settled, faultLog⟩ := h
  obtain ⟨p, cleared, settled, debugRequest, sameLog⟩ := clearDebugRequest_eq settled
  have faultless (waits : p.halted ∨ p.pendingTransfer.isSome) : p.fault = none :=
    settled.fault_eq_none waits
  have halted_or_pending (halted : p.halted) : p.pendingTransfer = none :=
    settled.halted_or_pending halted
  rw [finishRun, cleared]
  constructor <;> simp_all [notify, isHalted, hasPendingTransfer]

/-- A single step waits to finish where the host has something to end. -/
theorem finishStep_consistent (running : m.running = false) (continues : m.continues = false)
    (resumeAt : m.resumeAt = none) (compiled : m.compiled)
    (settled : m.processor.control.Settled) (faultLog : m.processor.faultLog = []) :
    m.finishStep.Consistent := by
  obtain ⟨p, cleared, settled, debugRequest, sameLog⟩ := clearDebugRequest_eq settled
  have halted_or_pending (halted : p.halted) : p.pendingTransfer = none :=
    settled.halted_or_pending halted
  rw [finishStep, cleared]
  constructor <;> simp_all [notify, isHalted, hasPendingTransfer]

theorem ready_of_canContinue {p : Processor δ} (settled : p.control.Settled)
    (going : p.canContinue) : p.control.Ready := by
  simp only [Processor.canContinue, Bool.and_eq_true, Bool.not_eq_true', Option.isNone_iff_eq_none]
    at going
  refine ⟨going.1.1, ?_, going.1.2, going.2⟩
  cases requested : p.control.debugRequest with
  | false => rfl
  | true =>
      have halted : p.halted = true := settled.halted_of_debugRequest requested
      rw [going.1.1] at halted
      cases halted

section Runs

variable [PortDevice δ]

theorem reset_idle (m : Machine δ) : m.reset.2.Idle := by
  rw [reset]
  simp only
  split <;> constructor <;> rfl

/-- A turn that takes a step keeps the machine in its batch, faults being reported at once. -/
theorem InBatch.advanced (h : m.InBatch) (going : m.processor.canContinue) (now : Reading)
    (clock : Feed Reading) (observers : Observers) :
    ((m.shown now clock).advanced false m.running observers).InBatch := by
  have ready : (m.shown now clock).processor.control.Ready :=
    ready_of_canContinue h.settled going
  have settled := Processor.step_settled false _ ready
  exact ⟨h.running, h.stepPending, h.continues, h.resumeAt, h.compiled,
    settled.with_faultLog [], rfl⟩

/-- If there is no reset, the batch goes on. -/
theorem InBatch.next {m' : Machine δ} (h : m.InBatch) (going : m.processor.canContinue)
    {now : Reading} {clock : Feed Reading} {observers : Observers}
    (unasked : ((m.shown now clock).advanced false m.running observers).takeResetRequest =
      (false, m')) : m'.InBatch := by
  have kept := h.advanced going now clock observers
  rcases takeResetRequest_eq ((m.shown now clock).advanced false m.running observers) with
    ⟨last, taken⟩ | ⟨device, taken⟩
  · rw [taken] at unasked
    cases unasked
  · rw [taken] at unasked
    cases unasked
    exact ⟨kept.running, kept.stepPending, kept.continues, kept.resumeAt, kept.compiled,
      kept.settled, kept.faultLog⟩

/-- A batch ends with a finished run, with a time to go on, or with a reset. -/
theorem runTurns_consistent (started : Time) (turns : Nat) (count : Word) (h : m.InBatch) :
    Leads (runTurns started turns count m) Consistent True := by
  refine loop_induction (P := fun m _ result => m.InBatch → Leads result Consistent True)
    ?broken ?finished ?next started turns count m h
  case broken => exact fun _ _ => trivial
  case finished =>
    intro m m' steps turned h
    cases turned with
    | ended rests => exact finishRun_consistent h
    | paused going now clock resumeAt =>
        have ready := ready_of_canContinue h.settled going
        obtain ⟨halted, debugRequest, fault, pendingTransfer⟩ := ready
        obtain ⟨running, stepPending, continues, resumeAt, compiled, settled, faultLog⟩ := h
        simp only [Processor.control] at halted debugRequest fault pendingTransfer
        show Consistent _
        constructor <;> simp_all [shown, isHalted, hasPendingTransfer]
    | reset going now clock observers told asked =>
        rcases takeResetRequest_eq ((m.shown now clock).advanced false m.running observers) with
          ⟨last, taken⟩ | ⟨device, taken⟩
        · rw [taken] at asked
          cases asked
          exact (reset_idle last).consistent
        · rw [taken] at asked
          cases asked
  case next =>
    intro m count m' steps more result turned rest h
    cases turned with
    | stepped going now clock observers told count unasked =>
        exact rest (h.next going unasked)

omit [PortDevice δ] in
theorem Startable.launched (h : m.Startable) : m.launched.InBatch := by
  have settled := h.ready.settled
  rw [Machine.launched]
  simp only
  split <;> exact ⟨rfl, rfl, rfl, rfl, h.compiled, settled, h.faultLog⟩

theorem runBatch_consistent (h : m.Startable) : Leads m.runBatch Consistent True :=
  runTurns_consistent _ _ _ h.launched

/-- A single step leaves the machine idle, or waiting for what the host has to end. -/
theorem stepOnce_consistent (h : m.Startable) (resumeAt : m.resumeAt = none) :
    m.stepOnce.Consistent := by
  have settled := Processor.step_settled true m.poised.processor h.ready
  obtain ⟨observers, told⟩ := reportFaults_advanced m.poised true
  rw [stepOnce_eq told]
  rcases takeResetRequest_eq (m.poised.advanced true false observers) with
    ⟨m', taken⟩ | ⟨device, taken⟩
  · rw [taken]
    exact (reset_idle m').consistent
  · rw [taken]
    exact finishStep_consistent rfl rfl resumeAt h.compiled (settled.with_faultLog []) rfl

end Runs

/-- However the call ends, it takes a consistent machine to a consistent one. -/
def KeepsConsistent {α : Type} (x : MachineCall δ α) : Prop :=
  ∀ m, m.Consistent → Ends x (fun _ m' => m'.Consistent) (fun _ m' => m'.Consistent) True m

section Calls

theorem addVariable_keepsConsistent (d : Declaration) :
    KeepsConsistent (δ := δ) (addVariable d) := by
  intro m consistent
  rw [ends_addVariable]
  refine ⟨fun _ => consistent, fun quiet => ?_⟩
  have idle := (consistent.idle quiet).edit
  split
  · exact (idle _ _ _ _).consistent
  · exact (idle _ _ _ _).consistent

theorem addVariables_keepsConsistent (ds : List Declaration) :
    KeepsConsistent (δ := δ) (addVariables ds) :=
  fun _ consistent => ends_addVariables addVariable_keepsConsistent ds consistent

theorem removeVariable_keepsConsistent (name : String) :
    KeepsConsistent (δ := δ) (removeVariable name) := by
  intro m consistent
  rw [ends_removeVariable]
  refine ⟨fun _ => consistent, fun quiet => ?_⟩
  have idle := (consistent.idle quiet).edit
  split
  · exact (idle _ _ _ _).consistent
  · exact (idle _ _ _ _).consistent

theorem stop_keepsConsistent : KeepsConsistent (δ := δ) stop := by
  intro m consistent
  rw [ends_stop]
  refine ⟨fun _ => consistent, fun _ => ⟨fun _ => consistent, fun awake =>
    ⟨fun _ => consistent, fun complete => ⟨fun _ => ?_, fun _ => consistent⟩⟩⟩⟩
  have pendingTransfer : m.processor.pendingTransfer = none := by
    simpa [hasPendingTransfer] using complete
  apply Idle.consistent
  exact ⟨rfl, rfl, rfl, rfl, Bool.eq_false_iff.mpr awake, pendingTransfer,
    consistent.debugRequest, consistent.faultLog⟩

variable [PortDevice δ]

theorem assemble_keepsConsistent (source : String) :
    KeepsConsistent (δ := δ) (assemble source) := by
  intro m consistent
  rw [ends_assemble]
  refine ⟨fun _ => consistent, fun quiet => ?_⟩
  have idle := consistent.idle quiet
  have unloads : ({ m with processor := m.processor.load #[] } : Machine δ).Idle :=
    ⟨idle.running, idle.stepPending, idle.continues, idle.resumeAt, rfl, rfl, rfl, rfl⟩
  split
  · exact ((reset_idle _).edit _ _ _ _).consistent
  · rw [unloaded]
    exact (unloads.edit _ _ _ _).consistent

theorem run_keepsConsistent : KeepsConsistent (δ := δ) run := by
  intro m consistent
  rw [ends_run]
  refine ⟨fun _ => consistent, fun compiled => ⟨fun _ => consistent, fun quiet => ?_⟩⟩
  exact runBatch_consistent ((consistent.idle quiet).startable compiled)

theorem step_keepsConsistent : KeepsConsistent (δ := δ) step := by
  intro m consistent
  rw [ends_step]
  refine ⟨fun _ => consistent, fun compiled => ⟨fun _ => consistent, fun quiet => ?_⟩⟩
  have idle := consistent.idle quiet
  exact stepOnce_consistent (idle.startable compiled) idle.resumeAt

/-- A request ends a halt, and with it the waiting for one. -/
theorem wake_consistent {p : Processor δ} (h : m.Consistent) (awake : p.halted = false)
    (pendingTransfer : p.pendingTransfer = m.processor.pendingTransfer)
    (fault : p.fault = m.processor.fault) (debugRequest : p.debugRequest = false)
    (faultLog : p.faultLog = []) :
    Leads ({ m with processor := p } : Machine δ).wake Consistent True := by
  obtain ⟨running_iff, running_free, halted_or_pending, step_or_run, waits_iff, -, -,
    compiled⟩ := h
  rw [wake]
  simp only
  split
  · rename_i pending
    constructor <;> simp_all [isHalted, hasPendingTransfer]
  · split
    · constructor <;> simp_all [notify, isHalted, hasPendingTransfer]
    · split
      · split
        · constructor <;> simp_all [isHalted, hasPendingTransfer]
        · apply runBatch_consistent
          constructor <;> simp_all [isHalted, hasPendingTransfer]
      · constructor <;> simp_all [isHalted, hasPendingTransfer]

theorem requestInterrupt_keepsConsistent (number : Word) :
    KeepsConsistent (δ := δ) (requestInterrupt number) := by
  intro m consistent
  rw [ends_requestInterrupt]
  exact ⟨fun _ => consistent, fun _ =>
    wake_consistent consistent rfl rfl rfl consistent.debugRequest consistent.faultLog⟩

/-- Completing a transfer ends the step or the run that waited for it, or lets the run go on. -/
theorem resumeTransfer_keepsConsistent : KeepsConsistent (δ := δ) resumeTransfer := by
  intro m consistent
  obtain ⟨fault, faultLog, control⟩ := Processor.control_resumeTransfer m.processor
  rw [ends_resumeTransfer]
  refine ⟨fun _ => consistent, fun pending => ?_⟩
  generalize m.processor.resumeTransfer = resumed at control
  obtain ⟨result, p⟩ := resumed
  obtain ⟨observers, told⟩ := reportFaults_eq { m with processor := p }
  simp only [Processor.control, Control.mk.injEq] at control
  obtain ⟨running_iff, running_free, halted_or_pending, step_or_run, waits_iff, debugRequest, -,
    compiled⟩ := consistent
  have ended : Leads ({ m with processor := p } : Machine δ).reportFaults.afterResume
      Consistent True := by
    rw [told, afterResume]
    simp only
    split
    · show Consistent _
      constructor <;> simp_all [notify, isHalted, hasPendingTransfer]
    · split
      · show Consistent _
        constructor <;> simp_all [notify, isHalted, hasPendingTransfer]
      · split
        · apply runBatch_consistent
          constructor <;> simp_all [isHalted, hasPendingTransfer]
        · show Consistent _
          constructor <;> simp_all [isHalted, hasPendingTransfer]
  cases result with
  | error f => exact ended
  | ok done => exact ended

theorem requestAll_consistent (numbers : List UInt8) {m : Machine δ} (h : m.Consistent) :
    Leads (requestAll m numbers) Consistent True := by
  induction numbers generalizing m with
  | nil => exact h
  | cons number rest ih =>
      rw [requestAll_cons]
      exact (leads_after (requestInterrupt_keepsConsistent _ m h)).bind (fun _ => ih) id

theorem takeResetRequest_consistent {m : Machine δ} (h : m.Consistent) :
    m.takeResetRequest.2.Consistent := by
  rcases takeResetRequest_eq m with ⟨m', taken⟩ | ⟨device, taken⟩
  · rw [taken]
    exact (reset_idle m').consistent
  · rw [taken]
    exact h.exchanged device

omit [PortDevice δ] in
/-- A run whose time has come can go on. -/
theorem Consistent.startable_of_elapsed {m : Machine δ} (h : m.Consistent) {now : Time}
    (elapsed : m.resumeAt.any (· ≤ now)) :
    m.running ∧ ({ m with resumeAt := none } : Machine δ).Startable := by
  have running : m.running := h.running_iff.mpr (by
    cases resumeAt : m.resumeAt with
    | none => simp [resumeAt] at elapsed
    | some time => rfl)
  obtain ⟨halted, pendingTransfer, -⟩ := h.running_free running
  exact ⟨running, h.compiled (.inl running), halted,
    by simpa [hasPendingTransfer] using pendingTransfer, h.debugRequest, h.faultLog⟩

theorem goOn_consistent {m : Machine δ} (h : m.Consistent) (now : Time) :
    Leads (m.goOn now) Consistent True := by
  rw [goOn.eq_def]
  split
  · rename_i elapsed
    obtain ⟨running, startable⟩ := h.startable_of_elapsed elapsed
    have awake : m.processor.halted = false := startable.halted
    have complete : m.processor.pendingTransfer = none := startable.pendingTransfer
    have goes : (m.running && !m.isHalted && !m.hasPendingTransfer) = true := by
      simp [running, isHalted, hasPendingTransfer, awake, complete]
    simp only
    split
    · exact runBatch_consistent startable
    · rename_i blocked
      exact absurd goes blocked
  · exact h

theorem tick_consistent {m : Machine δ} (h : m.Consistent) (now : Time) :
    Leads (m.tick now) Consistent True := by
  have polls : (m.polled now).Consistent := h.exchanged _
  rw [tick_eq]
  exact (requestAll_consistent _ polls).bind
    (fun _ requested => goOn_consistent (takeResetRequest_consistent requested) now) id

theorem perform_consistent {m : Machine δ} (h : m.Consistent) (c : Call) :
    Leads (m.perform c) Consistent True := by
  cases c with
  | addVariable d => exact leads_after (addVariable_keepsConsistent d m h)
  | addVariables ds => exact leads_after (addVariables_keepsConsistent ds m h)
  | removeVariable name => exact leads_after (removeVariable_keepsConsistent name m h)
  | assemble source => exact leads_after (assemble_keepsConsistent source m h)
  | run => exact leads_after (run_keepsConsistent m h)
  | step => exact leads_after (step_keepsConsistent m h)
  | stop => exact leads_after (stop_keepsConsistent m h)
  | reset => exact (reset_idle m).consistent
  | requestInterrupt number => exact leads_after (requestInterrupt_keepsConsistent number m h)
  | resumeTransfer => exact leads_after (resumeTransfer_keepsConsistent m h)
  | tick now => exact tick_consistent h now
  | setBuffer value | attach | detach number =>
      exact ⟨h.running_iff, h.running_free, h.halted_or_pending, h.step_or_run, h.waits_iff,
        h.debugRequest, h.faultLog, h.compiled⟩

/-- Whatever a host does with a machine, its flags agree with the state of its processor. -/
theorem consistent_of_reachable {m : Machine δ} (reachable : Reachable m) : m.Consistent := by
  induction reachable with
  | new made =>
      obtain rfl := eq_of_new made
      exact Idle.consistent ⟨rfl, rfl, rfl, rfl, rfl, rfl, rfl, rfl⟩
  | call c _ returned ih => exact (perform_consistent ih c).of_some returned
  | attended clock patience _ ih =>
      exact ⟨ih.running_iff, ih.running_free, ih.halted_or_pending, ih.step_or_run, ih.waits_iff,
        ih.debugRequest, ih.faultLog, ih.compiled⟩

end Calls

theorem consistent_waiting_for_input :
    ∃ m : Machine Script, Reachable m ∧ m.hasPendingTransfer ∧ m.Consistent := by
  let fresh : Machine Script :=
    { processor := .new 16 {} default, settings := { memorySize := 16 } }
  have made : Machine.new { memorySize := 16 } {} default = .ok fresh := rfl
  have waiting : (fresh.history
      [⟨default, 0, .assemble "in al, 5"⟩, ⟨default, 2, .run⟩]).any hasPendingTransfer := by
    decide +kernel
  obtain ⟨m, reachable, waits⟩ := Reachable.exists_of_history (.new made) waiting
  exact ⟨m, reachable, waits, consistent_of_reachable reachable⟩

end Machine

end ReducedX86
