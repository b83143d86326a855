import ReducedX86.Proofs.Machine.Batches

/-!
Which steps a machine takes.

A host makes one call after the other, each at its own time. A call steps the processor in batches,
or once, or not at all, and between the steps does a few other things to the machine. `stepsOf`
lists the steps of a call with the processor from which each is taken, and `Path` has one rule for
each other thing that is done. What holds at the start and is preserved by each of these holds after
any history. Of a call that does not return, the steps are listed as far as its host is patient.
-/
namespace ReducedX86.Machine

variable {δ : Type}

/-- A call, with what the clocks show from then on and the patience of the host. -/
structure Event where
  clock : Feed Reading
  patience : Nat
  call : Call

variable [PortDevice δ]

def meet (m : Machine δ) (e : Event) : Option (Machine δ) :=
  (m.attended e.clock e.patience).perform e.call

/-- The machine after events in their order, if each call returns. -/
def history (m : Machine δ) : List Event → Option (Machine δ)
  | [] => some m
  | e :: rest => (m.meet e).bind (·.history rest)

theorem Reachable.meet {m m' : Machine δ} (h : Reachable m) {e : Event} (met : m.meet e = some m') :
    Reachable m' :=
  .call e.call (.attended e.clock e.patience h) met

theorem Reachable.history {m m' : Machine δ} (h : Reachable m) {events : List Event}
    (ran : m.history events = some m') : Reachable m' := by
  induction events generalizing m with
  | nil =>
      cases ran
      exact h
  | cons e rest ih =>
      obtain ⟨next, met, ran⟩ := Option.bind_eq_some_iff.mp ran
      exact ih (h.meet met) ran

theorem Reachable.exists_of_history {m : Machine δ} (h : Reachable m) {events : List Event}
    {p : Machine δ → Bool} (found : (m.history events).any p) : ∃ m', Reachable m' ∧ p m' := by
  obtain ⟨m', ran, holds⟩ := (Option.any_eq_true p _).mp found
  exact ⟨m', h.history ran, holds⟩

/-! The steps of a call -/

def wakeSteps (m : Machine δ) : List (Stepping δ) :=
  if m.hasPendingTransfer then []
  else if m.stepPending then []
  else if m.continues then
    if m.running then [] else { m with continues := false }.batch
  else []

def requestSteps (number : Word) (m : Machine δ) : List (Stepping δ) :=
  match m.processor.queueInterrupt number with
  | none => []
  | some processor => { m with processor }.wakeSteps

theorem requestSteps_eq (number : Word) (m : Machine δ) :
    m.requestSteps number =
      if 32 ≤ number ∧ number ≤ 255 then (m.requested number).wakeSteps else [] := by
  rw [requestSteps, Processor.queueInterrupt]
  by_cases external : 32 ≤ number ∧ number ≤ 255
  · rw [if_pos external, if_pos external]
    rfl
  · rw [if_neg external, if_neg external]

def resumeSteps (m : Machine δ) : List (Stepping δ) :=
  if m.hasPendingTransfer then
    let m := { m with processor := m.processor.resumeTransfer.2 }.reportFaults
    if m.stepPending then []
    else if m.processor.fault.isSome then []
    else if m.continues then m.batch
    else []
  else []

def requestAllSteps : List UInt8 → Machine δ → List (Stepping δ)
  | [], _ => []
  | number :: rest, m =>
      requestSteps (UInt32.ofNat number.toNat) m ++
        (after (requestInterrupt (UInt32.ofNat number.toNat)) m).elim [] (requestAllSteps rest)

/-- The steps of the rest of a tick. -/
def goOnSteps (m : Machine δ) (now : Time) : List (Stepping δ) :=
  if m.resumeAt.any (· ≤ now) then
    let m := { m with resumeAt := none }
    if m.running && !m.isHalted && !m.hasPendingTransfer then m.batch else []
  else []

def tickSteps (now : Time) (m : Machine δ) : List (Stepping δ) :=
  let due := (PortDevice.poll m.processor.device now).1
  requestAllSteps due (m.polled now) ++
    (requestAll (m.polled now) due).elim [] fun m' => m'.takeResetRequest.2.goOnSteps now

/-- The steps that a call takes. -/
def stepsOf (m : Machine δ) : Call → List (Stepping δ)
  | .run => if m.compiled && !m.isRunningOrWaiting then m.batch else []
  | .step => if m.compiled && !m.isRunningOrWaiting then [(true, m.poised.processor)] else []
  | .requestInterrupt number => m.requestSteps number
  | .resumeTransfer => m.resumeSteps
  | .tick now => m.tickSteps now
  | _ => []

/-- The steps that are taken along a history. -/
def stepsAlong (m : Machine δ) : List Event → List (Stepping δ)
  | [] => []
  | e :: rest =>
      (m.attended e.clock e.patience).stepsOf e.call ++ (m.meet e).elim [] (·.stepsAlong rest)

/-! What is done beside the steps -/

/-- What is done to a machine at a time, other than stepping its processor. -/
inductive Adjusts : Machine δ → Machine δ → Prop
  | told {m : Machine δ} (table : VariableTable) (artifacts : Artifacts) (observers : Observers)
      (compiled : Bool) :
      Adjusts m { m with table, artifacts, observers, compiled }
  | attended {m : Machine δ} (clock : Feed Reading) (patience : Nat) :
      Adjusts m (m.attended clock patience)
  /-- a run is marked to go on only where there is no fault -/
  | marked {m : Machine δ} (running stepPending continues : Bool) (resumeAt : Option Time)
      (faultless : continues → m.continues ∨ m.processor.fault = none) :
      Adjusts m { m with running, stepPending, continues, resumeAt }
  | edited {m : Machine δ} (fault : Option Fault) (faultLog : List Fault)
      (halted debugRequest : Bool) (interruptQueue : List UInt8) (buffer : Word) (now : Reading)
      (forgotten : fault = none ∨ fault = m.processor.fault) :
      Adjusts m { m with
        processor := { m.processor with
          fault, faultLog, halted, debugRequest, interruptQueue, buffer, now } }
  | polled {m : Machine δ} (now : Time) :
      Adjusts m { m with
        processor := { m.processor with device := (PortDevice.poll m.processor.device now).2 } }
  | asked {m : Machine δ} :
      Adjusts m { m with
        processor := { m.processor with
          device := (PortDevice.takeResetRequest m.processor.device).2 } }
  | resumed {m : Machine δ} :
      Adjusts m { m with processor := m.processor.resumeTransfer.2, continues := false }
  | loaded {m : Machine δ} (program : Array Instruction) :
      Adjusts m { m with processor := m.processor.load program }
  | reset {m : Machine δ} : Adjusts m m.reset.2

/-- A run that was to go on later is given up, or begins. -/
theorem Adjusts.ended {m : Machine δ} (running stepPending : Bool) (resumeAt : Option Time) :
    Adjusts m { m with running, stepPending, continues := false, resumeAt } :=
  .marked running stepPending false resumeAt fun continues => absurd continues Bool.false_ne_true

/-- The machine after a step, whose faults are reported and whose wish for a reset is known. -/
def stepped (m : Machine δ) (stepping : Bool) : Machine δ :=
  let p := (m.processor.step stepping).2
  { m with
    processor := { p with faultLog := [], device := (PortDevice.takeResetRequest p.device).2 } }

/-- How a machine comes from one state to another by taking the listed steps. No step is taken while a
transfer waits, or while a run is marked to go on later. -/
inductive Path : Machine δ → List (Stepping δ) → Machine δ → Prop
  | refl {m : Machine δ} : Path m [] m
  | adjust {m m' m'' : Machine δ} {steps : List (Stepping δ)} (did : Adjusts m m')
      (rest : Path m' steps m'') : Path m steps m''
  | step {m m' : Machine δ} {steps : List (Stepping δ)} (stepping : Bool)
      (free : m.processor.pendingTransfer = none) (alone : m.continues = false)
      (rest : Path (m.stepped stepping) steps m') :
      Path m ((stepping, m.processor) :: steps) m'

namespace Path

variable {m m' m'' : Machine δ} {steps more : List (Stepping δ)}

theorem trans (first : Path m steps m') (second : Path m' more m'') :
    Path m (steps ++ more) m'' := by
  induction first with
  | refl => exact second
  | adjust did _ ih => exact .adjust did (ih second)
  | step stepping free alone _ ih => exact .step stepping free alone (ih second)

theorem then_adjust (first : Path m steps m') (did : Adjusts m' m'') : Path m steps m'' := by
  have whole := first.trans (.adjust did .refl)
  rwa [List.append_nil] at whole

theorem of_adjust (did : Adjusts m m') : Path m [] m' := .adjust did .refl

/-- What holds at the start and is preserved by steps and by all else holds at the end. -/
theorem preserves {P : Machine δ → Prop} (path : Path m steps m') (start : P m)
    (adjust : ∀ {m m'}, Adjusts m m' → P m → P m')
    (step : ∀ {m} stepping, m.processor.pendingTransfer = none → m.continues = false → P m →
      P (m.stepped stepping)) : P m' := by
  induction path with
  | refl => exact start
  | adjust did _ ih => exact ih (adjust did start)
  | step stepping free alone _ ih => exact ih (step stepping free alone start)

end Path

/-- The machine comes to `result` by taking the listed steps; they may break off if there is none. -/
def Traces (m : Machine δ) (steps : List (Stepping δ)) (result : Option (Machine δ)) : Prop :=
  Leads result (Path m steps) (∃ m', Path m steps m')

namespace Traces

variable {m m' : Machine δ} {steps more : List (Stepping δ)} {result : Option (Machine δ)}

theorem of_path (path : Path m steps m') : Traces m steps (some m') := path

theorem after (first : Path m steps m') (second : Traces m' more result) :
    Traces m (steps ++ more) result := by
  apply Leads.mono second
  · exact fun _ path => first.trans path
  · exact fun ⟨last, path⟩ => ⟨last, first.trans path⟩

theorem bind {next : Machine δ → Option (Machine δ)} {rest : Machine δ → List (Stepping δ)}
    (first : Traces m steps result) (second : ∀ m', Traces m' (rest m') (next m')) :
    Traces m (steps ++ result.elim [] rest) (result.bind next) := by
  cases result with
  | none =>
      rw [Option.elim_none, List.append_nil]
      exact first
  | some m' => exact after first (second m')

end Traces

variable {m : Machine δ}

theorem path_tell (observers : Observers) : Path m [] { m with observers } :=
  .of_adjust (.told m.table m.artifacts observers m.compiled)

theorem path_forget : Path m [] { m with processor := { m.processor with fault := none } } :=
  .of_adjust (.edited none m.processor.faultLog m.processor.halted m.processor.debugRequest
    m.processor.interruptQueue m.processor.buffer m.processor.now (.inl rfl))

theorem path_shown (now : Reading) (clock : Feed Reading) : Path m [] (m.shown now clock) :=
  .adjust (.edited m.processor.fault m.processor.faultLog m.processor.halted
      m.processor.debugRequest m.processor.interruptQueue m.processor.buffer now (.inr rfl))
    (.of_adjust (.attended clock m.patience))

theorem path_clearDebugRequest : Path m [] m.clearDebugRequest := by
  rw [clearDebugRequest]
  split
  · exact .of_adjust (.edited m.processor.fault m.processor.faultLog false false
      m.processor.interruptQueue m.processor.buffer m.processor.now (.inr rfl))
  · exact .refl

theorem path_takeResetRequest : Path m [] m.takeResetRequest.2 := by
  rw [takeResetRequest]
  simp only
  split
  · exact .adjust .asked (.of_adjust .reset)
  · exact .of_adjust .asked

/-- A step and what follows it at once. -/
theorem path_step (stepping running : Bool) (observers : Observers)
    (free : m.processor.pendingTransfer = none) (alone : m.continues = false) :
    Path m [(stepping, m.processor)] (m.advanced stepping running observers).takeResetRequest.2 := by
  have told : Path (m.stepped stepping) [] { m.stepped stepping with running, observers } :=
    .adjust (.marked running m.stepPending m.continues m.resumeAt fun waits => .inl waits)
      (path_tell observers)
  rw [takeResetRequest]
  simp only
  refine .step stepping free alone ?_
  split
  · exact told.then_adjust .reset
  · exact told

theorem path_finishRun : Path m [] m.finishRun := by
  have cleared := path_clearDebugRequest (m := m)
  rw [finishRun]
  generalize m.clearDebugRequest = m' at cleared ⊢
  refine (cleared.then_adjust (.marked false false
    ((m'.isHalted || m'.hasPendingTransfer) && m'.processor.fault.isNone) m'.resumeAt ?_)).trans
      (path_tell _)
  intro waits
  simp only [Bool.and_eq_true, Option.isNone_iff_eq_none] at waits
  exact .inr waits.2

omit [PortDevice δ] in
theorem free_of_canContinue {p : Processor δ} (going : p.canContinue) :
    p.pendingTransfer = none := by
  simp only [Processor.canContinue, Bool.and_eq_true, Option.isNone_iff_eq_none] at going
  exact going.2

/-- A turn that takes a step, as far as the question whether a reset is asked for. -/
theorem path_turn (now : Reading) (clock : Feed Reading) (observers : Observers)
    (going : m.processor.canContinue) (alone : m.continues = false) :
    Path m [(false, (m.shown now clock).processor)]
      ((m.shown now clock).advanced false m.running observers).takeResetRequest.2 :=
  (path_shown now clock).trans
    (path_step (m := m.shown now clock) false m.running observers (free_of_canContinue going) alone)

theorem traces_turns (started : Time) (turns : Nat) (count : Word) (alone : m.continues = false) :
    Traces m (loopSteps started turns count m) (runTurns started turns count m) := by
  refine loop_induction (P := fun m steps result => m.continues = false → Traces m steps result)
    ?broken ?finished ?next started turns count m alone
  case broken => exact fun m _ => ⟨m, .refl⟩
  case finished =>
    intro m m' steps turned alone
    cases turned with
    | ended rests => exact path_finishRun
    | paused going now clock resumeAt =>
        exact (path_shown now clock).then_adjust
          (.marked m.running m.stepPending m.continues _ fun waits => .inl waits)
    | reset going now clock observers told asked =>
        have path := path_turn now clock observers going alone
        rw [asked] at path
        exact path
  case next =>
    intro m count m' steps more result turned rest alone
    cases turned with
    | stepped going now clock observers told count unasked =>
        have path := path_turn now clock observers going alone
        rw [unasked] at path
        refine .after path (rest ?_)
        rcases takeResetRequest_eq ((m.shown now clock).advanced false m.running observers) with
          ⟨last, taken⟩ | ⟨device, taken⟩
        · rw [taken] at unasked
          cases unasked
        · rw [taken] at unasked
          cases unasked
          exact alone

theorem traces_runBatch : Traces m m.batch m.runBatch := by
  have begins : Path m [] m.launched := by
    rw [launched]
    simp only
    split
    · exact (path_forget.then_adjust (.ended true false none)).trans (path_shown _ _)
    · exact ((path_forget.then_adjust (.ended true false none)).trans (path_tell _)).trans
        (path_shown _ _)
  have alone : m.launched.continues = false := by
    rw [launched]
    simp only
    split <;> rfl
  exact .after begins (traces_turns _ _ _ alone)

theorem traces_wake : Traces m m.wakeSteps m.wake := by
  have ends : Path m [] { m with continues := false } :=
    .of_adjust (.ended m.running m.stepPending m.resumeAt)
  rw [wake, wakeSteps]
  split
  · exact .of_path .refl
  · split
    · exact .of_path (.adjust (.ended m.running false m.resumeAt) (path_tell _))
    · split
      · simp only
        split
        · exact .of_path ends
        · exact .after ends traces_runBatch
      · exact .of_path .refl

/-- However the call ends, it takes the listed steps. -/
def TakesSteps {α : Type} (x : MachineCall δ α) (steps : Machine δ → List (Stepping δ)) : Prop :=
  ∀ m, Ends x (fun _ m' => Path m (steps m) m') (fun _ m' => Path m (steps m) m')
    (∃ m', Path m (steps m) m') m

theorem TakesSteps.traces {α : Type} {x : MachineCall δ α} {steps : Machine δ → List (Stepping δ)}
    (takes : TakesSteps x steps) (m : Machine δ) : Traces m (steps m) (Machine.after x m) :=
  leads_after (takes m)

theorem path_addVariable (d : Declaration) :
    TakesSteps (δ := δ) (addVariable d) fun _ => [] := by
  intro m
  rw [ends_addVariable]
  refine ⟨fun _ => .refl, fun _ => ?_⟩
  split <;> exact .of_adjust (.told ..)

theorem path_addVariables (ds : List Declaration) :
    TakesSteps (δ := δ) (addVariables ds) fun _ => [] := by
  intro m
  refine ends_addVariables (P := Path m []) (fun d m' path => ?_) ds .refl
  apply (path_addVariable d m').mono
  · exact fun _ _ path' => path.trans path'
  · exact fun _ _ path' => path.trans path'
  · exact fun ⟨last, path'⟩ => ⟨last, path.trans path'⟩

theorem path_removeVariable (name : String) :
    TakesSteps (δ := δ) (removeVariable name) fun _ => [] := by
  intro m
  rw [ends_removeVariable]
  refine ⟨fun _ => .refl, fun _ => ?_⟩
  split <;> exact .of_adjust (.told ..)

theorem path_stop : TakesSteps (δ := δ) stop fun _ => [] := by
  intro m
  rw [ends_stop]
  exact ⟨fun _ => .refl, fun _ => ⟨fun _ => .refl, fun _ => ⟨fun _ => .refl, fun _ =>
    ⟨fun _ => .adjust (.ended false false none) (path_tell _), fun _ => .refl⟩⟩⟩⟩

theorem path_assemble (source : String) : TakesSteps (δ := δ) (assemble source) fun _ => [] := by
  intro m
  rw [ends_assemble]
  refine ⟨fun _ => .refl, fun _ => ?_⟩
  have unloads : Path m [] { m with processor := m.processor.load #[] } :=
    .of_adjust (.loaded #[])
  split
  · rename_i program table assembled
    have loads : Path m [] (m.loaded program table) := by
      rw [loaded]
      exact (unloads.then_adjust (.loaded program.instructions)).then_adjust
        (.told table program.artifacts m.observers true)
    exact (loads.then_adjust .reset).trans (path_tell _)
  · rename_i e table refused
    have kept : Path m [] (m.unloaded table) := by
      rw [unloaded]
      exact unloads.then_adjust (.told table m.artifacts m.observers false)
    generalize m.unloaded table = unloaded at kept ⊢
    exact kept.trans (path_tell _)

theorem path_stepOnce (free : m.processor.pendingTransfer = none) :
    Path m [(true, m.poised.processor)] m.stepOnce := by
  have begins : Path m [] m.poised :=
    (path_forget.then_adjust (.ended true false m.resumeAt)).trans (path_shown _ _)
  obtain ⟨observers, told⟩ := reportFaults_advanced m.poised true
  have steps := begins.trans (path_step true false observers free rfl)
  rw [stepOnce_eq told]
  generalize Machine.takeResetRequest (δ := δ) _ = taken at steps ⊢
  obtain ⟨asked, m'⟩ := taken
  cases asked with
  | true => exact steps
  | false =>
      refine (steps.trans path_clearDebugRequest).trans ?_
      exact .adjust (.marked _ _ _ _ fun waits => .inl waits) (path_tell _)

theorem traces_requestInterrupt (number : Word) :
    Traces m (m.requestSteps number) (Machine.after (requestInterrupt number) m) := by
  rw [after_requestInterrupt, requestSteps_eq]
  split
  · have requests : Path m [] (m.requested number) :=
      .of_adjust (.edited m.processor.fault m.processor.faultLog false m.processor.debugRequest _
        m.processor.buffer m.processor.now (.inr rfl))
    exact Traces.after requests traces_wake
  · exact .of_path .refl

theorem traces_afterResume :
    Traces { m with continues := false }
      (if m.stepPending then []
        else if m.processor.fault.isSome then []
        else if m.continues then m.batch
        else [])
      m.afterResume := by
  rw [afterResume]
  split
  · exact .of_path (.adjust (.ended m.running false m.resumeAt) (path_tell _))
  · split
    · exact .of_path (path_tell _)
    · split
      · exact traces_runBatch (m := { m with continues := false })
      · rename_i ended
        have same : { m with continues := false } = m := by
          rw [← Bool.eq_false_iff.mpr ended]
        rw [same]
        exact .of_path .refl

theorem traces_resumeTransfer : TakesSteps (δ := δ) resumeTransfer resumeSteps := by
  intro m
  rw [ends_resumeTransfer, resumeSteps]
  refine ⟨fun free => ?_, fun waits => ?_⟩
  · rw [if_neg (Bool.eq_false_iff.mp free)]
    exact .refl
  · rw [if_pos waits]
    obtain ⟨observers, told⟩ := reportFaults_eq { m with processor := m.processor.resumeTransfer.2 }
    simp only [told]
    generalize eq : m.processor.resumeTransfer = resumed
    have completed : Path m []
        { m with processor := { resumed.2 with faultLog := [] }, continues := false, observers } := by
      rw [← eq]
      exact .adjust .resumed (.adjust (.edited _ [] _ _ _ _ _ (.inr rfl)) (path_tell observers))
    have whole := Traces.after completed (traces_afterResume
      (m := { m with processor := { resumed.2 with faultLog := [] }, observers }))
    cases resumed.1 with
    | error f => exact whole
    | ok done => exact whole

theorem traces_requestAll (numbers : List UInt8) :
    Traces m (requestAllSteps numbers m) (requestAll m numbers) := by
  induction numbers generalizing m with
  | nil => exact .of_path .refl
  | cons number rest ih =>
      rw [requestAll_cons, requestAllSteps]
      exact (traces_requestInterrupt _).bind fun _ => ih

theorem goOn_of_none (unpaused : m.resumeAt = none) (now : Time) :
    m.goOn now = some m ∧ m.goOnSteps now = [] := by
  simp only [goOn, goOnSteps, unpaused, Option.any_none, Bool.false_eq_true, ↓reduceIte, and_true]

theorem traces_goOn (now : Time) : Traces m (m.goOnSteps now) (m.goOn now) := by
  have unpaused : Path m [] { m with resumeAt := none } :=
    .of_adjust (.marked m.running m.stepPending m.continues none fun waits => .inl waits)
  rw [goOn, goOnSteps]
  split
  · simp only
    split
    · exact .after unpaused traces_runBatch
    · exact .of_path unpaused
  · exact .of_path .refl

theorem traces_tick (now : Time) : Traces m (m.tickSteps now) (m.tick now) := by
  have polls : Path m [] (m.polled now) := .of_adjust (.polled now)
  have whole := Traces.after polls ((traces_requestAll (PortDevice.poll m.processor.device now).1).bind
    fun m' => Traces.after path_takeResetRequest (traces_goOn now))
  rw [tick_eq, tickSteps]
  exact whole

theorem traces_perform (c : Call) : Traces m (m.stepsOf c) (m.perform c) := by
  cases c with
  | addVariable d => exact (path_addVariable d).traces m
  | addVariables ds => exact (path_addVariables ds).traces m
  | removeVariable name => exact (path_removeVariable name).traces m
  | assemble source => exact (path_assemble source).traces m
  | run =>
      rw [perform, after_run, stepsOf]
      split
      · exact traces_runBatch
      · exact .of_path .refl
  | step =>
      rw [perform, after_step, stepsOf]
      split
      · rename_i starts
        simp only [Bool.and_eq_true, Bool.not_eq_true', isRunningOrWaiting, hasPendingTransfer,
          Bool.or_eq_false_iff, Option.isSome_eq_false_iff, Option.isNone_iff_eq_none] at starts
        exact path_stepOnce starts.2.2
      · exact .of_path .refl
  | stop => exact path_stop.traces m
  | reset => exact .of_path (.of_adjust .reset)
  | requestInterrupt number => exact traces_requestInterrupt number
  | resumeTransfer => exact traces_resumeTransfer.traces m
  | tick now => exact traces_tick now
  | setBuffer value =>
      exact .of_path (.of_adjust (.edited m.processor.fault m.processor.faultLog
        m.processor.halted m.processor.debugRequest m.processor.interruptQueue value
        m.processor.now (.inr rfl)))
  | attach | detach number => exact .of_path (path_tell _)

theorem traces_meet (e : Event) :
    Traces m ((m.attended e.clock e.patience).stepsOf e.call) (m.meet e) :=
  .after (.of_adjust (.attended e.clock e.patience)) (traces_perform e.call)

/-- A history takes the steps that are listed for it, and nothing is done beside them but what `Adjusts`
names. -/
theorem traces_history (events : List Event) :
    Traces m (m.stepsAlong events) (m.history events) := by
  induction events generalizing m with
  | nil => exact .of_path .refl
  | cons e rest ih => exact (traces_meet e).bind fun _ => ih

end ReducedX86.Machine
