import ReducedX86.Proofs.Machine.Consistency
import ReducedX86.Proofs.Machine.History
import ReducedX86.Proofs.Processor.Equipment

/-!
What a machine records and tells.

A call breaks down into small moves: the processor takes a step, a flag is set, an observer is told
something. `Does` has one rule for each kind of move, and a `Chronicle` is a sequence of them with the
faults that are recorded and the notifications that are sent, in their order. A ledger is kept along
it: whether the observers take the machine for running, and which faults they have not yet been told.
The entries are such that a chronicle with a wrong notification cannot be entered, so that it is
enough to show for each part of a call that its chronicle can.
-/
namespace ReducedX86

variable {δ : Type}

theorem Processor.faultLog_resumeTransfer (p : Processor δ) :
    ∃ faults : List Fault, p.resumeTransfer.2.faultLog = faults.reverse ++ p.faultLog := by
  cases pending : p.pendingTransfer with
  | none =>
      rw [resumeTransfer, pending]
      exact ⟨[], rfl⟩
  | some t =>
      have kept := (Execution.keeps_complete Control.view p.buffer t).control p.released
      cases ran : (Execution.complete p.buffer t).run p.released with
      | ok u q =>
          rw [resumeTransfer_of_ok pending ran]
          exact ⟨[], congrArg Control.faultLog (kept.of_ok ran)⟩
      | error f q =>
          rw [resumeTransfer_of_error pending ran]
          exact ⟨[f], congrArg (f :: ·) (congrArg Control.faultLog (kept.of_error ran))⟩

namespace Machine

/-- What is of note in the work of a machine. -/
inductive Deed (δ : Type)
  /-- the machine, as it then is, tells its observers something -/
  | told (teller : Machine δ) (n : Notification)
  /-- the processor records a fault -/
  | recorded (f : Fault)

/-- The processor after a reset, except for its device. -/
def wiped (p : Processor δ) (table : VariableTable) : Processor δ :=
  let cleared := p.resetExecution.resetMemory
  { cleared with memory := table.fill cleared.memory }.resetRegisters

section Moves

variable [PortDevice δ]

/-- One move. The variables and the program change only where the host is `preparing` the machine, and
the observer `watcher` is not detached. -/
inductive Does (watcher : Nat) (preparing : Bool) : Machine δ → List (Deed δ) → Machine δ → Prop
  | told {m : Machine δ} (n : Notification) : Does watcher preparing m [.told m n] (m.notify n)
  | stepped {m : Machine δ} (stepping : Bool) {faults : List Fault} (alone : m.stepPending = false)
      (log : (m.processor.step stepping).2.faultLog = faults.reverse ++ m.processor.faultLog) :
      Does watcher preparing m (faults.map .recorded)
        { m with processor := (m.processor.step stepping).2 }
  | completed {m : Machine δ} {faults : List Fault} (awake : m.isHalted = false)
      (log : m.processor.resumeTransfer.2.faultLog = faults.reverse ++ m.processor.faultLog) :
      Does watcher preparing m (faults.map .recorded)
        { m with processor := m.processor.resumeTransfer.2 }
  /-- the faults that are recorded are going to be reported -/
  | taken {m : Machine δ} :
      Does watcher preparing m [] { m with processor := m.processor.takeFaults.2 }
  /-- a step stays unfinished only where there is no fault -/
  | marked {m : Machine δ} (running stepPending continues : Bool) (resumeAt : Option Time)
      (faultless : stepPending → m.stepPending ∨ m.processor.fault = none) :
      Does watcher preparing m [] { m with running, stepPending, continues, resumeAt }
  | edited {m : Machine δ} (fault : Option Fault) (halted debugRequest : Bool)
      (interruptQueue : List UInt8) (buffer : Word) (now : Reading)
      (forgotten : fault = none ∨ fault = m.processor.fault) (awake : halted → m.processor.halted) :
      Does watcher preparing m [] { m with
        processor := { m.processor with
          fault, halted, debugRequest, interruptQueue, buffer, now } }
  | hosted {m : Machine δ} (clock : Feed Reading) (patience : Nat) :
      Does watcher preparing m [] (m.attended clock patience)
  | exchanged {m : Machine δ} (device : δ) :
      Does watcher preparing m [] { m with processor := { m.processor with device } }
  | wiped {m : Machine δ} :
      Does watcher preparing m [] { m with processor := wiped m.processor m.table }
  | attached {m : Machine δ} :
      Does watcher preparing m [] { m with observers := m.observers.attach.2 }
  | detached {m : Machine δ} (number : Nat) (other : number ≠ watcher) :
      Does watcher preparing m [] { m with observers := (m.observers.detach number).2 }
  | prepared {m : Machine δ} (table : VariableTable) (artifacts : Artifacts) (compiled : Bool)
      (allowed : preparing) : Does watcher preparing m [] { m with table, artifacts, compiled }
  | loaded {m : Machine δ} (program : Array Instruction) (allowed : preparing) :
      Does watcher preparing m [] { m with processor := m.processor.load program }

inductive Chronicle (watcher : Nat) (preparing : Bool) :
    Machine δ → List (Deed δ) → Machine δ → Prop
  | refl {m : Machine δ} : Chronicle watcher preparing m [] m
  | next {m m' m'' : Machine δ} {first rest : List (Deed δ)}
      (did : Does watcher preparing m first m') (later : Chronicle watcher preparing m' rest m'') :
      Chronicle watcher preparing m (first ++ rest) m''

variable {watcher : Nat} {preparing : Bool} {m m' m'' : Machine δ} {deeds more : List (Deed δ)}

theorem Chronicle.of_does (did : Does watcher preparing m deeds m') :
    Chronicle watcher preparing m deeds m' := by
  have whole := Chronicle.next did .refl
  rwa [List.append_nil] at whole

theorem Chronicle.trans (first : Chronicle watcher preparing m deeds m')
    (second : Chronicle watcher preparing m' more m'') :
    Chronicle watcher preparing m (deeds ++ more) m'' := by
  induction first with
  | refl => exact second
  | next did _ ih =>
      rw [List.append_assoc]
      exact .next did (ih second)

/-- What every move preserves holds at the end of a chronicle. -/
theorem Chronicle.preserves {P : Machine δ → Prop} (chronicle : Chronicle watcher preparing m deeds m')
    (start : P m)
    (move : ∀ {m m' : Machine δ} {deeds : List (Deed δ)}, Does watcher preparing m deeds m' →
      P m → P m') : P m' := by
  induction chronicle with
  | refl => exact start
  | next did _ ih => exact ih (move did start)

/-- A machine that keeps a step waiting has no fault to show for it. -/
def Unfaulted (m : Machine δ) : Prop :=
  m.stepPending → m.isHalted ∨ m.hasPendingTransfer → m.processor.fault = none

theorem Does.unfaulted (did : Does watcher preparing m deeds m') (unfaulted : m.Unfaulted) :
    m'.Unfaulted := by
  cases did with
  | told | taken | hosted | exchanged | attached | detached | prepared => exact unfaulted
  | stepped _ alone _ => exact fun pending => absurd (alone.symm.trans pending) Bool.false_ne_true
  | completed awake log =>
      obtain ⟨fault, faultLog, control⟩ := Processor.control_resumeTransfer m.processor
      have halted : m.processor.resumeTransfer.2.halted = m.processor.halted :=
        congrArg Control.halted control
      have free : m.processor.resumeTransfer.2.pendingTransfer = none :=
        congrArg Control.pendingTransfer control
      intro _ waits
      simp only [isHalted, hasPendingTransfer, halted, free] at awake waits
      simp [awake] at waits
  | marked _ _ _ _ faultless =>
      intro pending waits
      exact (faultless pending).elim (fun pending => unfaulted pending waits) id
  | edited fault _ _ _ _ _ forgotten awake =>
      intro pending waits
      rcases forgotten with forgotten | same
      · exact forgotten
      · exact same.trans (unfaulted pending (waits.imp_left awake))
  | wiped | loaded => exact fun _ _ => rfl

end Moves

/-! The ledger -/

/-- What the observers know of a machine. -/
structure Ledger where
  /-- whether they take it for running -/
  running : Bool
  /-- the faults of which they have not been told, the oldest first -/
  owed : List Fault
  deriving DecidableEq, Repr

/-- The ledger after a deed. A start must follow a stop, a fault that is reported must be the oldest one
that is owed, and none may be owed when something ends. -/
def Deed.enter (l : Ledger) : Deed δ → Option Ledger
  | .recorded f => some { l with owed := l.owed ++ [f] }
  | .told _ (.runtimeFault f) =>
      match l.owed with
      | g :: rest => if f = g then some { l with owed := rest } else none
      | [] => none
  | .told _ .startedRunning => if l.running then none else some { l with running := true }
  | .told _ (.stoppedRunning _) => if l.owed = [] then some { l with running := false } else none
  | .told _ (.stepFinished _) => if l.owed = [] then some l else none
  | .told _ _ => some l

/-- A status that speaks of neither a reset nor a stop is that of the machine. -/
def Deed.Honest : Deed δ → Prop
  | .told teller (.stoppedRunning s) | .told teller (.stepFinished s) =>
      s.reset = false → s.stopCalled = false → s = teller.status
  | _ => True

variable [PortDevice δ]

/-- The machine comes from `m` to `m'` by a chronicle that can be entered. -/
def Accounted (watcher : Nat) (preparing : Bool) (l : Ledger) (m : Machine δ) (l' : Ledger)
    (m' : Machine δ) : Prop :=
  ∃ deeds, Chronicle watcher preparing m deeds m' ∧ deeds.foldlM Deed.enter l = some l' ∧
    ∀ d ∈ deeds, d.Honest

variable {watcher : Nat} {preparing : Bool} {m m' m'' : Machine δ} {l l' l'' : Ledger}

theorem Accounted.refl : Accounted watcher preparing l m l m :=
  ⟨[], .refl, rfl, fun _ member => absurd member List.not_mem_nil⟩

theorem Accounted.trans (first : Accounted watcher preparing l m l' m')
    (second : Accounted watcher preparing l' m' l'' m'') :
    Accounted watcher preparing l m l'' m'' := by
  obtain ⟨deeds, chronicle, entered, honest⟩ := first
  obtain ⟨more, later, entered', honest'⟩ := second
  refine ⟨deeds ++ more, chronicle.trans later, ?_, ?_⟩
  · rw [List.foldlM_append, entered]
    exact entered'
  · exact List.forall_mem_append.mpr ⟨honest, honest'⟩

theorem accounted_quiet (did : Does watcher preparing m [] m') :
    Accounted watcher preparing l m l m' :=
  ⟨[], .of_does did, rfl, fun _ member => absurd member List.not_mem_nil⟩

theorem Accounted.then_quiet (first : Accounted watcher preparing l m l' m')
    (did : Does watcher preparing m' [] m'') : Accounted watcher preparing l m l' m'' :=
  first.trans (accounted_quiet did)

theorem accounted_tell {n : Notification} (entered : (Deed.told m n).enter l = some l')
    (honest : (Deed.told m n).Honest) : Accounted watcher preparing l m l' (m.notify n) := by
  refine ⟨[.told m n], .of_does (.told n), ?_, fun d member => ?_⟩
  · rw [List.foldlM_cons, entered]
    rfl
  · rw [List.mem_singleton.mp member]
    exact honest

omit [PortDevice δ] in
theorem enter_recorded (faults owed : List Fault) (running : Bool) :
    (faults.map (Deed.recorded (δ := δ))).foldlM Deed.enter ⟨running, owed⟩ =
      some ⟨running, owed ++ faults⟩ := by
  induction faults generalizing owed with
  | nil => rw [List.append_nil]; rfl
  | cons f rest ih =>
      rw [List.append_cons]
      exact ih (owed ++ [f])

theorem accounted_record {faults : List Fault} {running : Bool}
    (did : Does watcher preparing m (faults.map .recorded) m') :
    Accounted watcher preparing ⟨running, []⟩ m ⟨running, faults⟩ m' := by
  refine ⟨_, .of_does did, enter_recorded faults [] running, fun d member => ?_⟩
  obtain ⟨f, -, rfl⟩ := List.mem_map.mp member
  trivial

variable {running : Bool}

theorem accounted_report {f : Fault} {rest : List Fault} :
    Accounted watcher preparing ⟨running, f :: rest⟩ m ⟨running, rest⟩
      (m.notify (.runtimeFault f)) :=
  accounted_tell (if_pos rfl) trivial

theorem accounted_stop {s : RunStatus}
    (honest : s.reset = false → s.stopCalled = false → s = m.status) :
    Accounted watcher preparing ⟨running, []⟩ m ⟨false, []⟩ (m.notify (.stoppedRunning s)) :=
  accounted_tell rfl honest

theorem accounted_finish {s : RunStatus}
    (honest : s.reset = false → s.stopCalled = false → s = m.status) :
    Accounted watcher preparing ⟨running, []⟩ m ⟨running, []⟩ (m.notify (.stepFinished s)) :=
  accounted_tell rfl honest

/-! The parts of the calls -/

theorem accounted_reportFaults :
    Accounted watcher preparing ⟨running, m.processor.faultLog.reverse⟩ m ⟨running, []⟩
      m.reportFaults := by
  have reports (faults : List Fault) (m : Machine δ) :
      Accounted watcher preparing ⟨running, faults⟩ m ⟨running, []⟩
        (faults.foldl (fun m f => m.notify (.runtimeFault f)) m) := by
    induction faults generalizing m with
    | nil => exact .refl
    | cons f rest ih => exact accounted_report.trans (ih _)
  exact (accounted_quiet .taken).trans (reports _ _)

/-- The faults of a move are reported at once. -/
theorem accounted_work {p : Processor δ} (faults : List Fault)
    (did : Does watcher preparing m (faults.map .recorded) { m with processor := p })
    (log : p.faultLog = faults.reverse) :
    Accounted watcher preparing ⟨running, []⟩ m ⟨running, []⟩
      { m with processor := p }.reportFaults := by
  have reports : Accounted watcher preparing ⟨running, p.faultLog.reverse⟩ { m with processor := p }
      ⟨running, []⟩ { m with processor := p }.reportFaults := accounted_reportFaults
  rw [log, List.reverse_reverse] at reports
  exact (accounted_record did).trans reports

theorem accounted_step (stepping : Bool) (alone : m.stepPending = false)
    (silent : m.processor.faultLog = []) :
    Accounted watcher preparing ⟨running, []⟩ m ⟨running, []⟩
      { m with processor := (m.processor.step stepping).2 }.reportFaults := by
  rcases Processor.step_faults stepping m.processor with ⟨-, log⟩ | ⟨f, -, log⟩
  · exact accounted_work [] (.stepped stepping alone log) (log.trans silent)
  · refine accounted_work [f] (.stepped stepping alone log) ?_
    rw [log, silent]
    rfl

theorem accounted_complete (awake : m.isHalted = false) (silent : m.processor.faultLog = []) :
    Accounted watcher preparing ⟨running, []⟩ m ⟨running, []⟩
      { m with processor := m.processor.resumeTransfer.2 }.reportFaults := by
  obtain ⟨faults, log⟩ := m.processor.faultLog_resumeTransfer
  refine accounted_work faults (.completed awake log) ?_
  rw [log, silent, List.append_nil]

/-- A run, or a step, ends or begins. -/
theorem Does.ended (running continues : Bool) (resumeAt : Option Time) :
    Does watcher preparing m [] { m with running, stepPending := false, continues, resumeAt } :=
  .marked running false continues resumeAt fun pending => absurd pending Bool.false_ne_true

theorem accounted_clearDebugRequest :
    Accounted watcher preparing l m l m.clearDebugRequest := by
  rw [clearDebugRequest]
  split
  · exact accounted_quiet (.edited m.processor.fault false false m.processor.interruptQueue
      m.processor.buffer m.processor.now (.inr rfl) fun halted => absurd halted Bool.false_ne_true)
  · exact .refl

theorem accounted_shown (now : Reading) (clock : Feed Reading) :
    Accounted watcher preparing l m l (m.shown now clock) :=
  (accounted_quiet (.edited m.processor.fault m.processor.halted m.processor.debugRequest
    m.processor.interruptQueue m.processor.buffer now (.inr rfl) id)).then_quiet
      (.hosted clock m.patience)

/-- A machine that is taken for running is told of as stopped, unless it only waits to finish a step. -/
theorem accounted_reset
    (known : running → m.isRunningOrWaiting ∧ m.stepPending = false) :
    Accounted watcher preparing ⟨running, []⟩ m ⟨false, []⟩ m.reset.2 := by
  let cleared : Machine δ :=
    { m with
      processor := wiped m.processor m.table
      running := false
      stepPending := false
      continues := false
      resumeAt := none }
  have idle : Accounted watcher preparing ⟨running, []⟩ m ⟨running, []⟩ cleared :=
    (accounted_quiet .wiped).then_quiet (.ended false false none)
  have reset (m' : Machine δ) (device : δ) :
      Accounted watcher preparing ⟨false, []⟩ m' ⟨false, []⟩
        { (m'.notify .reset).tock with
          processor := { (m'.notify .reset).tock.processor with device } } :=
    ((accounted_tell (n := .reset) rfl trivial).trans (accounted_shown _ _)).then_quiet
      (.exchanged device)
  have exempt (teller : Machine δ) :
      true = false → false = false → ({ reset := true } : RunStatus) = teller.status :=
    fun never => absurd never.symm Bool.false_ne_true
  rw [Machine.reset]
  simp only
  split
  · split
    · rename_i waits
      cases running with
      | true => exact absurd ((known rfl).2.symm.trans waits) Bool.false_ne_true
      | false => exact (idle.trans (accounted_finish (exempt cleared))).trans (reset _ _)
    · exact (idle.trans (accounted_stop (exempt cleared))).trans (reset _ _)
  · rename_i quiet
    cases running with
    | true => exact absurd (known rfl).1 quiet
    | false => exact idle.trans (reset cleared _)

theorem reset_running (m : Machine δ) : m.reset.2.running = false := (reset_idle m).running

variable (watcher preparing m running) in
theorem accounted_takeResetRequest
    (known : running → m.isRunningOrWaiting ∧ m.stepPending = false) :
    (∃ m', m.takeResetRequest = (true, m') ∧ m'.running = false ∧
      Accounted watcher preparing ⟨running, []⟩ m ⟨false, []⟩ m') ∨
      ∃ device, m.takeResetRequest =
        (false, { m with processor := { m.processor with device } }) := by
  rw [takeResetRequest]
  simp only
  generalize PortDevice.takeResetRequest m.processor.device = answer
  obtain ⟨asked, device⟩ := answer
  cases asked with
  | false => exact .inr ⟨device, rfl⟩
  | true =>
      exact .inl ⟨_, rfl, reset_running _, (accounted_quiet (.exchanged device)).trans
        (accounted_reset known)⟩

theorem accounted_finishRun :
    Accounted watcher preparing ⟨running, []⟩ m ⟨false, []⟩ m.finishRun :=
  (accounted_clearDebugRequest.then_quiet (.ended false _ _)).trans
    (accounted_stop fun _ _ => rfl)

/-- Between two points the observers know whether the machine is running, and no report is owed. -/
def Tracks (watcher : Nat) (preparing : Bool) (m m' : Machine δ) : Prop :=
  Accounted watcher preparing ⟨m.running, []⟩ m ⟨m'.running, []⟩ m'

theorem Tracks.trans (first : Tracks watcher preparing m m')
    (second : Tracks watcher preparing m' m'') : Tracks watcher preparing m m'' :=
  Accounted.trans first second

/-- A turn that takes a step reports its faults, and a reset that follows is told of. -/
theorem tracks_turn (h : m.InBatch) {now : Reading} {clock : Feed Reading} {observers : Observers}
    (going : m.processor.canContinue) (told : (m.shown now clock).Reports observers)
    {asked : Bool}
    (taken : ((m.shown now clock).advanced false m.running observers).takeResetRequest =
      (asked, m')) : Tracks watcher preparing m m' := by
  have stepped : Accounted watcher preparing ⟨m.running, []⟩ (m.shown now clock) ⟨m.running, []⟩
      { m.shown now clock with
        processor := ((m.shown now clock).processor.step false).2 }.reportFaults :=
    accounted_step false h.stepPending h.faultLog
  rw [told] at stepped
  have worked : Accounted watcher preparing ⟨m.running, []⟩ m ⟨m.running, []⟩
      ((m.shown now clock).advanced false m.running observers) :=
    (accounted_shown now clock).trans stepped
  have stays := h.advanced going now clock observers
  have known : ((m.shown now clock).advanced false m.running observers).isRunningOrWaiting ∧
      ((m.shown now clock).advanced false m.running observers).stepPending = false :=
    ⟨by simp [isRunningOrWaiting, stays.running], stays.stepPending⟩
  rcases accounted_takeResetRequest watcher preparing _ m.running fun _ => known with
    ⟨last, took, stopped, reset⟩ | ⟨device, took⟩
  · rw [took] at taken
    cases taken
    rw [Tracks, stopped]
    exact worked.trans reset
  · rw [took] at taken
    cases taken
    exact worked.then_quiet (.exchanged device)

/-- A batch is told to have stopped if and only if it does not go on. -/
theorem tracks_runTurns (started : Time) (turns : Nat) (count : Word) (h : m.InBatch) :
    Leads (runTurns started turns count m) (Tracks watcher preparing m) True := by
  refine loop_induction
    (P := fun m _ result => m.InBatch → Leads result (Tracks watcher preparing m) True)
    ?broken ?finished ?next started turns count m h
  case broken => exact fun _ _ => trivial
  case finished =>
    intro m m' steps turned h
    cases turned with
    | ended rests => exact accounted_finishRun
    | paused going now clock resumeAt =>
        exact (accounted_shown now clock).then_quiet
          (.marked m.running m.stepPending m.continues _ .inl)
    | reset going now clock observers told asked => exact tracks_turn h going told asked
  case next =>
    intro m count m' steps more result turned rest h
    cases turned with
    | stepped going now clock observers told count unasked =>
        have tracks : Tracks watcher preparing m m' := tracks_turn h going told unasked
        exact (rest (h.next going unasked)).mono (fun _ => tracks.trans) id

theorem Does.forgotten : Does watcher preparing m [] { m with
    processor := { m.processor with fault := none } } :=
  .edited none m.processor.halted m.processor.debugRequest m.processor.interruptQueue
    m.processor.buffer m.processor.now (.inl rfl) id

theorem tracks_runBatch (h : m.Startable) :
    Leads m.runBatch (Tracks watcher preparing m) True := by
  have begins : Accounted watcher preparing ⟨m.running, []⟩ m ⟨m.running, []⟩
      { m with
        running := true
        stepPending := false
        continues := false
        resumeAt := none
        processor := { m.processor with fault := none } } :=
    (accounted_quiet .forgotten).then_quiet (.ended true false none)
  have launches : Tracks watcher preparing m m.launched := by
    rw [Tracks, launched]
    simp only
    cases active : m.running with
    | true =>
        rw [active] at begins
        exact begins.trans (accounted_shown _ _)
    | false =>
        rw [active] at begins
        have told := begins.trans (accounted_tell (n := .startedRunning) rfl trivial)
        exact told.trans (accounted_shown _ _)
  exact (tracks_runTurns _ _ _ h.launched).mono (fun _ => launches.trans) id

theorem accounted_finishStep (settled : m.processor.control.Settled) :
    Accounted watcher preparing ⟨m.running, []⟩ m ⟨m.finishStep.running, []⟩ m.finishStep := by
  let cleared := m.clearDebugRequest
  let finished := { cleared with stepPending := cleared.isHalted || cleared.hasPendingTransfer }
  obtain ⟨p, eq, settled, -⟩ := clearDebugRequest_eq settled
  have stays : m.finishStep.running = m.running := by
    rw [finishStep, eq]
    rfl
  have faultless (waits : finished.stepPending) : cleared.processor.fault = none := by
    change cleared.isHalted || cleared.hasPendingTransfer at waits
    rw [show cleared = _ from eq] at waits ⊢
    exact settled.fault_eq_none (Bool.or_eq_true_iff.mp waits)
  have marks : Does watcher preparing cleared [] finished :=
    .marked cleared.running finished.stepPending cleared.continues cleared.resumeAt
      fun waits => .inr (faultless waits)
  rw [stays]
  exact (accounted_clearDebugRequest.then_quiet marks).trans (accounted_finish fun _ _ => rfl)

/-- A single step is told of when it has finished or waits for the host. -/
theorem accounted_stepOnce (h : m.Startable) (quiet : m.running = false) :
    Accounted watcher preparing ⟨m.running, []⟩ m ⟨m.stepOnce.running, []⟩ m.stepOnce := by
  have begins : Accounted watcher preparing ⟨false, []⟩ m ⟨false, []⟩ m.poised :=
    ((accounted_quiet .forgotten).then_quiet (.ended true false m.resumeAt)).trans
      (accounted_shown _ _)
  have works := begins.trans (accounted_step true rfl h.faultLog)
  have settled := Processor.step_settled true m.poised.processor h.ready
  obtain ⟨observers, told⟩ := reportFaults_advanced m.poised true
  rw [told] at works
  have rests : Accounted watcher preparing ⟨false, []⟩ m ⟨false, []⟩
      (m.poised.advanced true false observers) :=
    works.then_quiet (.ended false false m.resumeAt)
  rw [stepOnce_eq told, quiet]
  rcases accounted_takeResetRequest watcher preparing (m.poised.advanced true false observers) false
    (fun active => absurd active Bool.false_ne_true)
    with ⟨m', taken, stopped, reset⟩ | ⟨device, taken⟩
  · rw [taken]
    simp only [stopped]
    exact rests.trans reset
  · rw [taken]
    exact (rests.then_quiet (.exchanged device)).trans
      (accounted_finishStep (settled.with_faultLog []))

/-! The calls -/

theorem Tracks.unfaulted (tracks : Tracks watcher preparing m m') (unfaulted : m.Unfaulted) :
    m'.Unfaulted := by
  obtain ⟨deeds, chronicle, -⟩ := tracks
  exact chronicle.preserves unfaulted Does.unfaulted

omit [PortDevice δ] in
theorem Idle.unfaulted (idle : m.Idle) : m.Unfaulted :=
  fun pending => absurd (idle.stepPending.symm.trans pending) Bool.false_ne_true

omit [PortDevice δ] in
/-- A running machine does not wait to finish a step. -/
theorem Consistent.active (h : m.Consistent) (running : m.running) :
    m.isRunningOrWaiting ∧ m.stepPending = false := by
  obtain ⟨awake, free, -⟩ := h.running_free running
  refine ⟨by simp [isRunningOrWaiting, running], Bool.eq_false_iff.mpr fun waits => ?_⟩
  have blocked := h.waits_iff.mp (.inl waits)
  simp [awake, free] at blocked

theorem tracks_reset (h : m.Consistent) : Tracks watcher preparing m m.reset.2 := by
  rw [Tracks, reset_running]
  exact accounted_reset h.active

theorem tracks_takeResetRequest (h : m.Consistent) :
    Tracks watcher preparing m m.takeResetRequest.2 := by
  rcases accounted_takeResetRequest watcher preparing m m.running h.active with
    ⟨m', taken, stopped, reset⟩ | ⟨device, taken⟩
  · rw [taken, Tracks, stopped]
    exact reset
  · rw [taken]
    exact accounted_quiet (.exchanged device)

/-- A request lets a halt end, and what waited for that goes on or is told to have finished. -/
theorem tracks_wake {p : Processor δ} (h : m.Consistent) (unfaulted : m.Unfaulted)
    (awake : p.halted = false) (fault : p.fault = m.processor.fault)
    (debugRequest : p.debugRequest = false) (faultLog : p.faultLog = []) :
    Leads ({ m with processor := p } : Machine δ).wake
      (Tracks watcher preparing { m with processor := p }) True := by
  rw [wake]
  split
  · exact .refl
  · rename_i free
    have complete : p.pendingTransfer = none := by simpa [hasPendingTransfer] using free
    split
    · rename_i waits
      have faultless : p.fault = none := fault.trans (unfaulted waits (h.waits_iff.mp (.inl waits)))
      refine (accounted_quiet (.ended m.running false m.resumeAt)).trans (accounted_finish ?_)
      simp [status, isHalted, hasPendingTransfer, awake, complete, faultless]
    · split
      · rename_i waits
        have ends : Does watcher preparing { m with processor := p } []
            { m with processor := p, continues := false } :=
          .marked m.running m.stepPending false m.resumeAt .inl
        simp only
        split
        · exact accounted_quiet ends
        · have startable : ({ m with processor := p, continues := false } : Machine δ).Startable :=
            ⟨h.compiled (.inr (h.waits_iff.mp (.inr waits))), awake, complete, debugRequest, faultLog⟩
          exact (tracks_runBatch startable).mono (fun _ => Tracks.trans (accounted_quiet ends)) id
      · exact .refl

theorem tracks_afterResume (quiet : m.running = false) (startable : m.continues → m.Startable) :
    Leads m.afterResume (Tracks watcher preparing m) True := by
  rw [afterResume.eq_def]
  split
  · exact (accounted_quiet (.ended m.running false m.resumeAt)).trans
      (accounted_finish fun _ _ => rfl)
  · split
    · have marks : Accounted watcher preparing ⟨m.running, []⟩ m ⟨m.running, []⟩
          { m with continues := false } :=
        accounted_quiet (.marked m.running m.stepPending false m.resumeAt .inl)
      have stops := marks.trans (accounted_stop fun _ _ => rfl)
      have same : (⟨m.running, []⟩ : Ledger) = ⟨false, []⟩ := by rw [quiet]
      change Accounted _ _ _ m ⟨m.running, []⟩ _
      rw [same] at stops ⊢
      exact stops
    · split
      · rename_i continues
        exact tracks_runBatch (startable continues)
      · exact .refl

/-- However the call ends, its observers know whether the machine is running. -/
def KeepsTrack {α : Type} (watcher : Nat) (preparing : Bool) (x : MachineCall δ α) : Prop :=
  ∀ m, m.Consistent → m.Unfaulted →
    Ends x (fun _ m' => Tracks watcher preparing m m') (fun _ m' => Tracks watcher preparing m m')
      True m

theorem keepsTrack_addVariable (d : Declaration) :
    KeepsTrack (δ := δ) watcher true (addVariable d) := by
  intro m _ _
  rw [ends_addVariable]
  refine ⟨fun _ => .refl, fun _ => ?_⟩
  split <;>
    exact (accounted_quiet (.prepared _ m.artifacts false rfl)).trans (accounted_tell rfl trivial)

theorem keepsTrack_addVariables (ds : List Declaration) :
    KeepsTrack (δ := δ) watcher true (addVariables ds) := by
  intro m consistent unfaulted
  have kept : Ends (addVariables ds) (fun _ m' => m'.Consistent ∧ Tracks watcher true m m')
      (fun _ m' => m'.Consistent ∧ Tracks watcher true m m') True m := by
    refine ends_addVariables (P := fun m' => m'.Consistent ∧ Tracks watcher true m m')
      (fun d m' before => ?_) ds ⟨consistent, .refl⟩
    obtain ⟨consistent', tracks⟩ := before
    apply ((addVariable_keepsConsistent d m' consistent').and
      (keepsTrack_addVariable d m' consistent' (tracks.unfaulted unfaulted))).mono
    · exact fun _ _ after => ⟨after.1, tracks.trans after.2⟩
    · exact fun _ _ after => ⟨after.1, tracks.trans after.2⟩
    · exact id
  exact kept.mono (fun _ _ ended => ended.2) (fun _ _ ended => ended.2) id

theorem keepsTrack_removeVariable (name : String) :
    KeepsTrack (δ := δ) watcher true (removeVariable name) := by
  intro m _ _
  rw [ends_removeVariable]
  refine ⟨fun _ => .refl, fun _ => ?_⟩
  split
  · exact (accounted_quiet (.prepared _ m.artifacts false rfl)).trans (accounted_tell rfl trivial)
  · exact accounted_quiet (.prepared _ m.artifacts false rfl)

theorem keepsTrack_assemble (source : String) :
    KeepsTrack (δ := δ) watcher true (assemble source) := by
  intro m consistent _
  rw [ends_assemble]
  refine ⟨fun _ => .refl, fun idle => ?_⟩
  have quiet : (⟨m.running, []⟩ : Ledger) = ⟨false, []⟩ := by rw [(consistent.idle idle).running]
  have unloads (l : Ledger) :
      Accounted watcher true l m l { m with processor := m.processor.load #[] } :=
    accounted_quiet (.loaded #[] rfl)
  split
  · rename_i program table assembled
    have loads : Accounted watcher true ⟨false, []⟩ m ⟨false, []⟩ (m.loaded program table) := by
      rw [loaded]
      exact ((unloads _).then_quiet (.loaded program.instructions rfl)).then_quiet
        (.prepared table program.artifacts true rfl)
    change Accounted watcher true ⟨m.running, []⟩ m ⟨(m.loaded program table).reset.2.running, []⟩
      ((m.loaded program table).reset.2.notify (.assemblyFinished false))
    rw [quiet, reset_running]
    exact (loads.trans (accounted_reset fun active => absurd active Bool.false_ne_true)).trans
      (accounted_tell rfl trivial)
  · rename_i e table refused
    have kept := (unloads ⟨m.running, []⟩).then_quiet (.prepared table m.artifacts false rfl)
    rw [unloaded]
    generalize m.processor.load #[] = processor at kept ⊢
    exact (kept.trans (accounted_tell (n := .assemblyFailed e) rfl trivial)).trans
      (accounted_tell (n := .assemblyFinished true) rfl trivial)

theorem keepsTrack_run : KeepsTrack (δ := δ) watcher preparing run := by
  intro m consistent _
  rw [ends_run]
  exact ⟨fun _ => .refl, fun compiled => ⟨fun _ => .refl, fun quiet =>
    tracks_runBatch ((consistent.idle quiet).startable compiled)⟩⟩

theorem keepsTrack_step : KeepsTrack (δ := δ) watcher preparing step := by
  intro m consistent _
  rw [ends_step]
  refine ⟨fun _ => .refl, fun compiled => ⟨fun _ => .refl, fun quiet => ?_⟩⟩
  have idle := consistent.idle quiet
  exact accounted_stepOnce (idle.startable compiled) idle.running

theorem keepsTrack_stop : KeepsTrack (δ := δ) watcher preparing stop := by
  intro m _ _
  rw [ends_stop]
  refine ⟨fun _ => .refl, fun _ => ⟨fun _ => .refl, fun _ => ⟨fun _ => .refl, fun _ =>
    ⟨fun _ => ?_, fun _ => .refl⟩⟩⟩⟩
  exact (accounted_quiet (.ended false false none)).trans
    (accounted_stop fun _ asked => absurd asked.symm Bool.false_ne_true)

theorem keepsTrack_requestInterrupt (number : Word) :
    KeepsTrack (δ := δ) watcher preparing (requestInterrupt number) := by
  intro m consistent unfaulted
  rw [ends_requestInterrupt]
  refine ⟨fun _ => .refl, fun _ => ?_⟩
  have queues : Accounted watcher preparing ⟨m.running, []⟩ m ⟨m.running, []⟩
      (m.requested number) :=
    accounted_quiet (.edited m.processor.fault false m.processor.debugRequest _
      m.processor.buffer m.processor.now (.inr rfl)
      fun halted => absurd halted Bool.false_ne_true)
  have woken : Leads (m.requested number).wake
      (Tracks watcher preparing (m.requested number)) True :=
    tracks_wake (p := (m.requested number).processor) consistent unfaulted rfl rfl
      consistent.debugRequest consistent.faultLog
  exact woken.mono (fun _ => Tracks.trans queues) id

theorem keepsTrack_resumeTransfer : KeepsTrack (δ := δ) watcher preparing resumeTransfer := by
  intro m consistent _
  rw [ends_resumeTransfer]
  refine ⟨fun _ => .refl, fun waits => ?_⟩
  have awake : m.isHalted = false :=
    Bool.eq_false_iff.mpr fun halted => consistent.halted_or_pending ⟨halted, waits⟩
  have quiet : m.running = false := Bool.eq_false_iff.mpr fun running =>
    Bool.eq_false_iff.mp (consistent.running_free running).2.1 waits
  obtain ⟨fault, faultLog, control⟩ := m.processor.control_resumeTransfer
  have completes : Accounted watcher preparing ⟨m.running, []⟩ m ⟨m.running, []⟩
      { m with processor := m.processor.resumeTransfer.2 }.reportFaults :=
    accounted_complete awake consistent.faultLog
  obtain ⟨observers, told⟩ := reportFaults_eq { m with processor := m.processor.resumeTransfer.2 }
  rw [told] at completes
  simp only [told]
  let completed : Machine δ :=
    { m with processor := { m.processor.resumeTransfer.2 with faultLog := [] }, observers }
  have startable : completed.Startable :=
    ⟨consistent.compiled (.inr (.inr waits)), (congrArg Control.halted control).trans awake,
      congrArg Control.pendingTransfer control,
      (congrArg Control.debugRequest control).trans consistent.debugRequest, rfl⟩
  have whole : Leads completed.afterResume (Tracks watcher preparing m) True :=
    (tracks_afterResume (m := completed) quiet fun _ => startable).mono
      (fun _ => Tracks.trans completes) id
  cases m.processor.resumeTransfer.1 with
  | error f => exact whole
  | ok done => exact whole

variable (watcher preparing) in
theorem tracks_requestInterrupt (number : Word) (h : m.Consistent) (unfaulted : m.Unfaulted) :
    Leads (after (requestInterrupt number) m) (Tracks watcher preparing m) True :=
  leads_after (keepsTrack_requestInterrupt number m h unfaulted)

variable (watcher preparing) in
theorem tracks_requestAll (numbers : List UInt8) (h : m.Consistent) (unfaulted : m.Unfaulted) :
    Leads (requestAll m numbers) (Tracks watcher preparing m) True := by
  induction numbers generalizing m with
  | nil => exact .refl
  | cons number rest ih =>
      have tracks := tracks_requestInterrupt watcher preparing (UInt32.ofNat number.toNat) h unfaulted
      have consistent := leads_after
        (requestInterrupt_keepsConsistent (UInt32.ofNat number.toNat) m h)
      rw [requestAll_cons]
      refine (consistent.and tracks).bind ?_ id
      rintro m' ⟨consistent, tracks⟩
      exact (ih consistent (tracks.unfaulted unfaulted)).mono (fun _ => tracks.trans) id

theorem tracks_goOn (now : Time) (h : m.Consistent) :
    Leads (m.goOn now) (Tracks watcher preparing m) True := by
  have unpauses : Tracks watcher preparing m { m with resumeAt := none } :=
    accounted_quiet (.marked m.running m.stepPending m.continues none .inl)
  rw [goOn.eq_def]
  split
  · rename_i elapsed
    simp only
    split
    · exact (tracks_runBatch (h.startable_of_elapsed elapsed).2).mono (fun _ => unpauses.trans) id
    · exact unpauses
  · exact .refl

theorem tracks_tick (now : Time) (h : m.Consistent) (unfaulted : m.Unfaulted) :
    Leads (m.tick now) (Tracks watcher preparing m) True := by
  have polls : Tracks watcher preparing m (m.polled now) := accounted_quiet (.exchanged _)
  have told : (m.polled now).Consistent := h.exchanged _
  have consistent := requestAll_consistent (PortDevice.poll m.processor.device now).1 told
  rw [tick_eq]
  refine (consistent.and (tracks_requestAll watcher preparing _ told unfaulted)).bind ?_ id
  rintro m' ⟨consistent, requests⟩
  have settles := (polls.trans requests).trans (tracks_takeResetRequest consistent)
  exact (tracks_goOn now (takeResetRequest_consistent consistent)).mono (fun _ => settles.trans) id

/-- The calls by which a host changes the variables or the program. -/
def Call.Prepares : Call → Prop
  | .addVariable _ | .addVariables _ | .removeVariable _ | .assemble _ => True
  | _ => False

theorem tracks_perform (c : Call) (allowed : c.Prepares → preparing)
    (stays : ∀ number, c = .detach number → number ≠ watcher) (h : m.Consistent)
    (unfaulted : m.Unfaulted) :
    Leads (m.perform c) (Tracks watcher preparing m) True := by
  cases c with
  | addVariable d =>
      rw [allowed trivial]
      exact leads_after (keepsTrack_addVariable d m h unfaulted)
  | addVariables ds =>
      rw [allowed trivial]
      exact leads_after (keepsTrack_addVariables ds m h unfaulted)
  | removeVariable name =>
      rw [allowed trivial]
      exact leads_after (keepsTrack_removeVariable name m h unfaulted)
  | assemble source =>
      rw [allowed trivial]
      exact leads_after (keepsTrack_assemble source m h unfaulted)
  | run => exact leads_after (keepsTrack_run m h unfaulted)
  | step => exact leads_after (keepsTrack_step m h unfaulted)
  | stop => exact leads_after (keepsTrack_stop m h unfaulted)
  | reset => exact tracks_reset h
  | requestInterrupt number => exact tracks_requestInterrupt watcher preparing number h unfaulted
  | resumeTransfer => exact leads_after (keepsTrack_resumeTransfer m h unfaulted)
  | tick now => exact tracks_tick now h unfaulted
  | setBuffer value =>
      exact accounted_quiet (.edited m.processor.fault m.processor.halted m.processor.debugRequest
        m.processor.interruptQueue value m.processor.now (.inr rfl) id)
  | attach => exact accounted_quiet .attached
  | detach number => exact accounted_quiet (.detached number (stays number rfl))

/-- Every call spares some observer. -/
theorem exists_watcher (c : Call) : ∃ watcher, ∀ number, c = .detach number → number ≠ watcher := by
  by_cases detaches : ∃ number, c = .detach number
  · obtain ⟨number, rfl⟩ := detaches
    refine ⟨number + 1, fun other same => ?_⟩
    cases same
    exact Nat.ne_of_lt (Nat.lt_succ_self number)
  · exact ⟨0, fun number same => absurd ⟨number, same⟩ detaches⟩

theorem unfaulted_of_reachable (reachable : Reachable m) : m.Unfaulted := by
  induction reachable with
  | new made =>
      obtain rfl := eq_of_new made
      exact fun pending => absurd pending Bool.false_ne_true
  | call c reachable returned ih =>
      obtain ⟨watcher, stays⟩ := exists_watcher c
      have tracks : Leads _ (Tracks watcher true _) True :=
        tracks_perform c (fun _ => rfl) stays (consistent_of_reachable reachable) ih
      exact (tracks.of_some returned).unfaulted ih
  | attended clock patience _ ih => exact ih

/-- What a host does with a reachable machine makes a chronicle. -/
theorem exists_chronicle (preparing : Bool) (reachable : Reachable m) (c : Call)
    (allowed : c.Prepares → preparing) (returned : m.perform c = some m') :
    ∃ watcher deeds, Chronicle watcher preparing m deeds m' := by
  obtain ⟨watcher, stays⟩ := exists_watcher c
  obtain ⟨deeds, chronicle, -⟩ := (tracks_perform c allowed stays
    (consistent_of_reachable reachable) (unfaulted_of_reachable reachable)).of_some returned
  exact ⟨watcher, deeds, chronicle⟩

end Machine

end ReducedX86
