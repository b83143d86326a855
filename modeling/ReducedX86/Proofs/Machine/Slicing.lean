import ReducedX86.Device.Script
import ReducedX86.Proofs.Machine.Slice

/-!
Slicing a run into batches does not change it.

Each tick whose time has come runs the next batch. After a run and `k` ticks the processor is where
the run without an end is after `k + 1` slices, or where it has ended before. The device is taken to
be quiet: it fires no timer and asks for no reset.
-/
namespace ReducedX86.Machine

variable {δ : Type}

/-- A call of `tick`: what the clock shows during it, how long its host follows it, and the time
that the host tells. -/
structure Tick where
  clock : Feed Reading
  patience : Nat
  now : Time

/-- What the clock shows during a batch of the run that is started now. -/
def batchClock (m : Machine δ) (ticks : Nat → Tick) : Nat → Feed Reading
  | 0 => m.clock
  | k + 1 => (ticks k).clock

/-- How long a batch of the run that is started now is followed. -/
def batchPatience (m : Machine δ) (ticks : Nat → Tick) : Nat → Nat
  | 0 => m.patience
  | k + 1 => (ticks k).patience

/-- What the clock shows at each step of the run that is started now. The first reading of a batch
comes before its steps. -/
def sliceClock (m : Machine δ) (ticks : Nat → Tick) (i : Nat) : Reading :=
  if m.Unchecked then m.clock.get (i + 1)
  else
    let slice := m.settings.stepsPerCheck.toNat
    (m.batchClock ticks (i / slice)).get (i % slice + 1)

theorem sliceClock_eq {m : Machine δ} {ticks : Nat → Tick} {k base c : Nat}
    (starts : (base : ℕ∞) = k * m.sliceLength) (inside : (c : ℕ∞) < m.sliceLength) :
    m.sliceClock ticks (base + c) = (m.batchClock ticks k).get (c + 1) := by
  rw [sliceClock]
  rw [sliceLength] at starts inside
  split
  · rename_i unchecked
    rw [if_pos unchecked] at starts
    -- An endless slice is the first one.
    cases k with
    | zero =>
        rw [Nat.cast_zero, zero_mul] at starts
        have first : base = 0 := by exact_mod_cast starts
        rw [first, Nat.zero_add, batchClock]
    | succ k =>
        rw [ENat.mul_top (by simp)] at starts
        exact absurd starts (ENat.natCast_ne_top base)
  · rename_i checked
    rw [if_neg checked] at starts inside
    have starts : base = k * m.settings.stepsPerCheck.toNat := by exact_mod_cast starts
    have inside : c < m.settings.stepsPerCheck.toNat := by exact_mod_cast inside
    simp only [starts, Nat.add_comm _ c, Nat.add_mul_div_right c k (Nat.zero_lt_of_lt inside),
      Nat.div_eq_of_lt inside, Nat.zero_add, Nat.add_mul_mod_self_right, Nat.mod_eq_of_lt inside]

variable [PortDevice δ]

/-- The machine after a run and so many ticks, if these calls return. -/
def ticked (m : Machine δ) (ticks : Nat → Tick) : Nat → Option (Machine δ)
  | 0 => after run m
  | k + 1 => (ticked m ticks k).bind fun m' =>
      (m'.attended (ticks k).clock (ticks k).patience).tick (ticks k).now

section Run

open Processor

variable {m sliced : Machine δ} {ticks : Nat → Tick} {k n base : Nat}

omit [PortDevice δ] in
/-- The machine when its run has just started. -/
def begun (m : Machine δ) (patience : Nat) : Machine δ :=
  { m with
    running := true
    stepPending := false
    continues := false
    resumeAt := none
    observers := m.observers.notify .startedRunning
    patience }

omit [PortDevice δ] in
/-- The processor from which a run starts. -/
def starting (m : Machine δ) : Processor δ := { m.processor with fault := none }

/-- The processor where the run that is started now is after `n` steps. -/
def stateAt (m : Machine δ) (ticks : Nat → Tick) (n : Nat) : Processor δ :=
  stateAfter (m.sliceClock ticks) m.starting n

/-- After how many steps the run that is started now stops, if it is not sliced. -/
noncomputable def runLength (m : Machine δ) (ticks : Nat → Tick) : ℕ∞ :=
  lifetime (m.sliceClock ticks) m.starting

omit [PortDevice δ] in
/-- The processor with its faults reported and the halt of a breakpoint ended. -/
def acknowledged (p : Processor δ) : Processor δ :=
  { p with
    halted := p.halted && !p.debugRequest
    debugRequest := false
    faultLog := [] }

omit [PortDevice δ] in
theorem acknowledged_of_undisturbed {p : Processor δ} (told : p.faultLog = [])
    (undisturbed : p.debugRequest = false) : acknowledged p = p := by
  have same : ({ p with debugRequest := false, faultLog := [] } : Processor δ) = p := by
    rw [← told, ← undisturbed]
  have halted : (p.halted && !p.debugRequest) = p.halted := by
    rw [undisturbed, Bool.not_false, Bool.and_true]
  rw [acknowledged, halted]
  exact same

omit [PortDevice δ] in
theorem clearDebugRequest_eq_acknowledged (told : m.processor.faultLog = []) :
    m.clearDebugRequest = { m with processor := acknowledged m.processor } := by
  rw [clearDebugRequest]
  split
  · rename_i requested
    rw [acknowledged, requested, Bool.not_true, Bool.and_false, ← told]
  · rename_i undisturbed
    rw [acknowledged_of_undisturbed told (Bool.eq_false_iff.mpr undisturbed)]

omit [PortDevice δ] in
theorem finishRun_reporting (b : Machine δ) (p : Processor δ) :
    (b.reporting p).finishRun =
      let ended := { b.reporting p with processor := acknowledged p }
      { ended with
        running := false
        stepPending := false
        continues := (ended.isHalted || ended.hasPendingTransfer) && p.fault.isNone
        observers := ended.observers.notify (.stoppedRunning ended.status) } := by
  rw [finishRun, clearDebugRequest_eq_acknowledged rfl]
  rfl

/-- How the run that is started now is left after `n` steps. -/
inductive Left (m : Machine δ) (ticks : Nat → Tick) (n : Nat) : Machine δ → Prop
  | paused (going : (m.stateAt ticks n).canContinue) (now : Reading) (clock : Feed Reading)
      (patience : Nat) (resumeAt : Time) :
      Left m ticks n { ({ m.begun patience with clock } : Machine δ).reporting
        ((m.stateAt ticks n).atTime now) with resumeAt := some resumeAt }
  | ended (rests : (m.stateAt ticks n).canContinue = false) (now : Reading) (clock : Feed Reading)
      (patience : Nat) :
      Left m ticks n (({ m.begun patience with clock } : Machine δ).reporting
        ((m.stateAt ticks n).atTime now)).finishRun

theorem left_yielded (m : Machine δ) (ticks : Nat → Tick) (n patience : Nat)
    (feed : Feed Reading) (c : Nat) :
    Left m ticks n ((m.begun patience).yielded feed c (m.stateAt ticks n)) := by
  rw [yielded]
  split
  · rename_i going
    exact .paused going _ _ _ _
  · rename_i rests
    exact .ended (Bool.eq_false_iff.mpr rests) _ _ _

theorem runBatch_of_idle (idle : m.running = false) (clean : m.processor.faultLog = []) :
    m.runBatch =
      runTurns (m.clock.get 0).instant m.patience 0
        ((m.begun m.patience).within m.clock 0 m.starting) := by
  have unlogged : (m.starting.atTime (m.clock.get 0)).faultLog = [] := clean
  rw [runBatch, within, reporting_of_clean unlogged, launched, idle]
  rfl

/-- A batch of a run that goes on begins where the last one was left. -/
theorem runBatch_of_running {p : Processor δ} (patience : Nat) (clock : Feed Reading)
    (ready : p.control.Ready) (clean : p.faultLog = []) (now : Reading) :
    ({ m.begun patience with processor := p.atTime now, clock } : Machine δ).runBatch =
      runTurns (clock.get 0).instant patience 0 ((m.begun patience).within clock 0 p) := by
  have unlogged : (p.atTime (clock.get 0)).faultLog = [] := clean
  have fault : p.fault = none := ready.fault
  have same : ({ p.atTime now with fault := none } : Processor δ) = p.atTime now := by
    rw [← fault]
    rfl
  rw [runBatch, within, reporting_of_clean unlogged, launched]
  simp only [begun, ↓reduceIte, same]
  rfl

theorem tick_of_quiet {now : Time} (silent : PortDevice.poll m.processor.device now =
      ([], m.processor.device))
    (content : PortDevice.takeResetRequest m.processor.device = (false, m.processor.device)) :
    m.tick now = m.goOn now := by
  have unasked : m.takeResetRequest = (false, m) := takeResetRequest_of_content content
  rw [tick, silent]
  change goOn m.takeResetRequest.2 now = m.goOn now
  rw [unasked]

/-- The device fires no timer at the first `k` ticks and asks for no reset. -/
structure Quiet (ticks : Nat → Tick) (k : Nat) (device : δ) : Prop where
  silent : ∀ j < k, PortDevice.poll device (ticks j).now = ([], device)
  content : PortDevice.takeResetRequest device = (false, device)

/-- Nothing interferes with the run that is started now. -/
structure Alone (m : Machine δ) (ticks : Nat → Tick) (k : Nat) : Prop where
  slice : m.settings.timeSlice = 0
  ready : m.starting.control.Ready
  clean : m.starting.faultLog = []
  advances : ∀ j ≤ k, (m.batchClock ticks j).Advances
  quiet : ∀ n : Nat, (n : ℕ∞) ≤ m.runLength ticks → Quiet ticks k (m.stateAt ticks n).device

theorem Alone.undisturbed (alone : m.Alone ticks k) {j : Nat} (upper : j ≤ k)
    (starts : (base : ℕ∞) = j * m.sliceLength) (patience : Nat) :
    (m.begun patience).Undisturbed (m.batchClock ticks j) (m.sliceClock ticks) m.starting base :=
  { ready := alone.ready
    clean := alone.clean
    content := fun n lasts => (alone.quiet n lasts).content
    slice := alone.slice
    advances := alone.advances j upper
    reads := fun _ inside => sliceClock_eq starts inside }

omit [PortDevice δ] in
theorem counts_zero (m : Machine δ) : m.Counts 0 0 := .inr rfl

/-- A slice takes the run from its first step to its last, or to where the run has ended. -/
theorem Alone.batch (alone : m.Alone ticks k) {j : Nat} (upper : j ≤ k)
    (starts : (base : ℕ∞) = j * m.sliceLength) (reached : (base : ℕ∞) ≤ m.runLength ticks)
    (ends : (n : ℕ∞) = min (m.runLength ticks) ((j + 1) * m.sliceLength)) {patience : Nat}
    (enough : min m.sliceLength (m.runLength ticks) < patience) :
    ∃ sliced, runTurns ((m.batchClock ticks j).get 0).instant patience 0
        ((m.begun patience).within (m.batchClock ticks j) 0 (m.stateAt ticks base)) =
      some sliced ∧ Left m ticks n sliced := by
  have next : (j + 1) * m.sliceLength = base + m.sliceLength := by
    rw [starts, add_mul, one_mul]
  rw [next] at ends
  have later : (base : ℕ∞) ≤ n := ends ▸ le_min reached le_self_add
  obtain ⟨e, rfl⟩ := Nat.exists_eq_add_of_le (by exact_mod_cast later)
  have steps : (e : ℕ∞) ≤ min m.sliceLength (m.runLength ticks) := by
    have within := ends.le
    rw [Nat.cast_add, le_min_iff] at within
    refine le_min ?_ (le_add_self.trans within.1)
    exact (ENat.add_le_add_iff_left (ENat.natCast_ne_top base)).mp within.2
  have short : e < patience := by exact_mod_cast steps.trans_lt enough
  rw [← Nat.zero_add e] at ends ⊢
  have batch := (alone.undisturbed upper starts patience).runTurns_eq (counts_zero _) ends
  exact ⟨_, runTurns_of_le batch short, left_yielded m ticks _ patience _ _⟩

omit [PortDevice δ] in
theorem exists_steps {slice lasts : ℕ∞} (finite : min slice lasts < ⊤) (k : Nat) :
    ∃ n : Nat, (n : ℕ∞) = min lasts ((k + 1) * slice) := by
  have bounded : min lasts ((k + 1) * slice) ≠ ⊤ := by
    rcases min_lt_iff.mp finite with sliced | ends
    · have slices : ((k : ℕ∞) + 1) ≠ ⊤ := ENat.natCast_ne_top (k + 1)
      exact ne_top_of_le_ne_top (WithTop.mul_ne_top slices sliced.ne) (min_le_right _ _)
    · exact ne_top_of_le_ne_top ends.ne (min_le_left _ _)
  exact ⟨_, ENat.natCast_toNat bounded⟩

/-- A run goes on after its limit exactly when it lasts longer. -/
theorem canContinue_stateAt_iff {limit : ℕ∞} (ends : (n : ℕ∞) = min (m.runLength ticks) limit) :
    (m.stateAt ticks n).canContinue ↔ limit < m.runLength ticks := by
  constructor
  · intro going
    have alive := lt_lifetime_of_canContinue (ends ▸ min_le_left _ _) going
    rw [ends, min_lt_iff] at alive
    exact alive.resolve_left (lt_irrefl _)
  · intro longer
    rw [min_eq_right longer.le] at ends
    exact lt_lifetime_iff.mp (ends ▸ longer) n le_rfl

/-- A tick takes a run on to the end of the next slice, and leaves one that has ended alone. -/
theorem Alone.tick (alone : m.Alone ticks k) {j : Nat} (earlier : j < k)
    (left : Left m ticks n sliced)
    (ends : (n : ℕ∞) = min (m.runLength ticks) ((j + 1) * m.sliceLength))
    (due : ∀ t, sliced.resumeAt = some t → t ≤ (ticks j).now)
    (enough : min m.sliceLength (m.runLength ticks) < (ticks j).patience) :
    ∃ (next : Machine δ) (n' : Nat),
      (sliced.attended (ticks j).clock (ticks j).patience).tick (ticks j).now = some next ∧
      (n' : ℕ∞) = min (m.runLength ticks) ((j + 1 + 1) * m.sliceLength) ∧
      Left m ticks n' next := by
  have reached : (n : ℕ∞) ≤ m.runLength ticks := ends ▸ min_le_left _ _
  have quiet := alone.quiet n reached
  have silent := quiet.silent j earlier
  cases left with
  | ended rests now clock patience =>
      have past : m.runLength ticks ≤ (j + 1) * m.sliceLength :=
        not_lt.mp fun longer =>
          Bool.false_ne_true (rests.symm.trans ((canContinue_stateAt_iff ends).mpr longer))
      have later : (j + 1) * m.sliceLength ≤ (j + 1 + 1) * m.sliceLength :=
        mul_le_mul_left le_self_add _
      refine ⟨_, n, ?_, ?_, .ended rests now (ticks j).clock (ticks j).patience⟩
      · rw [finishRun_reporting, finishRun_reporting]
        exact tick_of_quiet silent quiet.content
      · rw [ends, min_eq_left past, min_eq_left (past.trans later)]
  | paused going now clock patience resumeAt =>
      have longer := (canContinue_stateAt_iff ends).mp going
      have starts : (n : ℕ∞) = (j + 1 : Nat) * m.sliceLength := by
        rw [ends, min_eq_right longer.le, Nat.cast_add, Nat.cast_one]
      obtain ⟨ready, clean⟩ := stateAfter_clean alone.ready alone.clean
        (lt_lifetime_of_canContinue reached going)
      obtain ⟨n', ends'⟩ := exists_steps (enough.trans (ENat.natCast_lt_top _)) (j + 1)
      obtain ⟨next, batch, left⟩ := alone.batch earlier starts reached ends' enough
      refine ⟨next, n', ?_, by rw [ends', Nat.cast_add, Nat.cast_one], left⟩
      have unlogged : ((m.stateAt ticks n).atTime now).faultLog = [] := clean
      have halted : (m.stateAt ticks n).halted = false := ready.halted
      have free : (m.stateAt ticks n).pendingTransfer = none := ready.pendingTransfer
      have again := runBatch_of_running (m := m) (ticks j).patience (ticks j).clock ready clean now
      rw [reporting_of_clean unlogged]
      refine (tick_of_quiet silent quiet.content).trans ?_
      rw [goOn, if_pos (by simpa [attended] using due resumeAt rfl),
        if_pos (by simp [begun, isHalted, hasPendingTransfer, attended, Processor.atTime, halted,
          free])]
      exact again.trans batch

/-- After a run and its ticks, the run has been left where the slices so far take it. -/
theorem Alone.ticked (alone : m.Alone ticks k) (compiled : m.compiled)
    (inactive : m.isRunningOrWaiting = false) (idle : m.running = false)
    (due : ∀ j < k, ∀ sliced t, m.ticked ticks j = some sliced → sliced.resumeAt = some t →
      t ≤ (ticks j).now)
    (enough : ∀ j ≤ k, min m.sliceLength (m.runLength ticks) < m.batchPatience ticks j)
    {j : Nat} (upper : j ≤ k) :
    ∃ (sliced : Machine δ) (n : Nat), m.ticked ticks j = some sliced ∧
      (n : ℕ∞) = min (m.runLength ticks) ((j + 1) * m.sliceLength) ∧ Left m ticks n sliced := by
  induction j with
  | zero =>
      have enough := enough 0 upper
      obtain ⟨n, ends⟩ := exists_steps (enough.trans (ENat.natCast_lt_top _)) 0
      have starts : ((0 : Nat) : ℕ∞) = (0 : Nat) * m.sliceLength := by
        rw [Nat.cast_zero, zero_mul]
      obtain ⟨sliced, batch, left⟩ := alone.batch upper starts zero_le ends enough
      refine ⟨sliced, n, ?_, ends, left⟩
      rw [Machine.ticked, after_run, compiled, inactive, runBatch_of_idle idle alone.clean]
      exact batch
  | succ j ih =>
      obtain ⟨sliced, n, ran, ends, left⟩ := ih (by omega)
      obtain ⟨next, n', went, ends', left'⟩ :=
        alone.tick upper left ends (due j upper sliced · ran) (enough (j + 1) upper)
      refine ⟨next, n', ?_, by rw [ends', Nat.cast_add, Nat.cast_one], left'⟩
      rw [Machine.ticked, ran]
      exact went

/-- A run without an end that is never sliced does not return. -/
theorem Alone.run_eq_none (alone : m.Alone ticks k) (compiled : m.compiled)
    (inactive : m.isRunningOrWaiting = false) (idle : m.running = false)
    (endless : min m.sliceLength (m.runLength ticks) = ⊤) (patience : Nat) :
    after run (m.attended m.clock patience) = none := by
  obtain ⟨unchecked, endless⟩ := min_eq_top.mp endless
  have starts : ((0 : Nat) : ℕ∞) = (0 : Nat) * m.sliceLength := by
    rw [Nat.cast_zero, zero_mul]
  have compiled : (m.attended m.clock patience).compiled = true := compiled
  have inactive : (m.attended m.clock patience).isRunningOrWaiting = false := inactive
  have undisturbed := alone.undisturbed (Nat.zero_le k) starts patience
  rw [after_run, compiled, inactive]
  exact (runBatch_of_idle (m := m.attended m.clock patience) idle alone.clean).trans
    (undisturbed.runTurns_eq_none (counts_zero _) endless unchecked _ patience)

/-- Where a run and `k` ticks leave the machine: after the steps of `k + 1` slices, or where the run
has ended before. If neither is ever reached, the run does not return. -/
theorem ticked_run (consistent : m.Consistent) (compiled : m.compiled)
    (inactive : m.isRunningOrWaiting = false) (slice : m.settings.timeSlice = 0)
    (advances : ∀ j ≤ k, (m.batchClock ticks j).Advances)
    (due : ∀ j < k, ∀ sliced t, m.ticked ticks j = some sliced → sliced.resumeAt = some t →
      t ≤ (ticks j).now)
    (quiet : ∀ n : Nat, (n : ℕ∞) ≤ m.runLength ticks → Quiet ticks k (m.stateAt ticks n).device) :
    let slices := (k + 1) * m.sliceLength
    ((∀ j ≤ k, min m.sliceLength (m.runLength ticks) < m.batchPatience ticks j) →
      ∃ (sliced : Machine δ) (n : Nat) (now : Reading), m.ticked ticks k = some sliced ∧
        (n : ℕ∞) = min (m.runLength ticks) slices ∧
        sliced.processor = acknowledged ((m.stateAt ticks n).atTime now) ∧
        (sliced.running ↔ slices < m.runLength ticks) ∧
        let told := (m.observers.notify .startedRunning).report
          (m.stateAt ticks n).faultLog.reverse
        sliced.observers =
          if sliced.running then told else told.notify (.stoppedRunning sliced.status)) ∧
    (min m.sliceLength (m.runLength ticks) = ⊤ → ∀ patience,
      after run (m.attended m.clock patience) = none) := by
  have idle := consistent.idle inactive
  have ready : m.starting.control.Ready :=
    ⟨idle.halted, idle.debugRequest, rfl, idle.pendingTransfer⟩
  have alone : m.Alone ticks k := ⟨slice, ready, idle.faultLog, advances, quiet⟩
  refine ⟨fun enough => ?_, alone.run_eq_none compiled inactive idle.running⟩
  obtain ⟨sliced, n, ran, ends, left⟩ :=
    alone.ticked compiled inactive idle.running due enough le_rfl
  have goes := canContinue_stateAt_iff ends
  cases left with
  | paused going now clock patience resumeAt =>
      have reached : (n : ℕ∞) ≤ m.runLength ticks := ends ▸ min_le_left _ _
      obtain ⟨ready, clean⟩ := stateAfter_clean alone.ready alone.clean
        (lt_lifetime_of_canContinue reached going)
      have unlogged : ((m.stateAt ticks n).atTime now).faultLog = [] := clean
      refine ⟨_, n, now, ran, ends, ?_, iff_of_true rfl (goes.mp going), rfl⟩
      rw [acknowledged_of_undisturbed unlogged ready.debugRequest, reporting_of_clean unlogged]
  | ended rests now clock patience =>
      refine ⟨_, n, now, ran, ends, ?_⟩
      rw [finishRun_reporting]
      exact ⟨rfl, iff_of_false Bool.false_ne_true fun longer =>
        Bool.false_ne_true (rests.symm.trans (goes.mpr longer)), rfl⟩

/-- The halt is the last step of the second slice, and the run ends with that slice. -/
theorem ticked_run_to_halt :
    ∃ (m started halted : Machine Script) (ticks : Nat → Tick) (now : Reading),
      m.Consistent ∧ m.ticked ticks 0 = some started ∧ started.running ∧
      m.ticked ticks 1 = some halted ∧ halted.isHalted ∧ m.runLength ticks ≤ 4 ∧
      ∃ n : Nat, (n : ℕ∞) = m.runLength ticks ∧
        halted.processor = acknowledged ((m.stateAt ticks n).atTime now) := by
  let nop : Instruction := { op := .system .nop }
  let clock (start : Time) : Feed Reading := { value := fun n => { instant := start + n } }
  let m : Machine Script :=
    { processor := (Processor.new 16 {} default).load #[nop, nop, nop, { op := .control .hlt }]
      settings := { memorySize := 16, timeSlice := 0, stepsPerCheck := 2 }
      compiled := true
      clock := clock 0
      patience := 3 }
  let ticks : Nat → Tick := fun _ => { clock := clock 10000000, patience := 3, now := 10000000 }
  have consistent : m.Consistent := Idle.consistent ⟨rfl, rfl, rfl, rfl, rfl, rfl, rfl, rfl⟩
  have advances (j : Nat) (_ : j ≤ 1) : (m.batchClock ticks j).Advances := by
    intro n
    cases j <;> exact Nat.add_lt_add_left (by omega) _
  have waits : (m.ticked ticks 0).map (·.resumeAt) = some (some 5000004) := by decide +kernel
  have due (j : Nat) (upper : j < 1) (sliced : Machine Script) (t : Time)
      (ran : m.ticked ticks j = some sliced) (paused : sliced.resumeAt = some t) :
      t ≤ (ticks j).now := by
    obtain rfl : j = 0 := by omega
    rw [ran, Option.map_some, paused] at waits
    cases waits
    decide
  have enough (j : Nat) (_ : j ≤ 1) :
      min m.sliceLength (m.runLength ticks) < m.batchPatience ticks j := by
    refine lt_of_le_of_lt (min_le_left _ _) ?_
    cases j <;> exact (by decide +kernel : (2 : ℕ∞) < (3 : Nat))
  obtain ⟨started, ran⟩ := Option.isSome_iff_exists.mp
    (by decide +kernel : (m.ticked ticks 0).isSome)
  have runs : (m.ticked ticks 0).map (·.running) = some true := by decide +kernel
  have stops : (m.ticked ticks 1).map (fun m => (m.running, m.isHalted)) = some (false, true) := by
    decide +kernel
  obtain ⟨halted, n, now, went, ends, same, goes, -⟩ :=
    (ticked_run (k := 1) consistent rfl rfl rfl advances due fun _ _ => ⟨fun _ _ => rfl, rfl⟩).1
      enough
  rw [ran, Option.map_some, Option.some_inj] at runs
  rw [went, Option.map_some, Option.some_inj, Prod.mk.injEq] at stops
  rw [stops.1] at goes
  have slices : (((1 : Nat) : ℕ∞) + 1) * m.sliceLength = 4 := by decide +kernel
  have short : m.runLength ticks ≤ 4 :=
    slices ▸ not_lt.mp fun longer => Bool.false_ne_true (goes.mpr longer)
  rw [slices, min_eq_left short] at ends
  exact ⟨m, started, halted, ticks, now, consistent, ran, runs, went, stops.2, short, n, ends, same⟩

/-- A jump to itself does not return if the counter is never past `stepsPerCheck`. -/
theorem run_of_unchecked_loop :
    ∃ m : Machine Script, m.Consistent ∧ m.compiled ∧ m.settings.timeSlice = 0 ∧
      m.settings.stepsPerCheck = 4294967295 ∧
      ∀ patience, after run (m.attended m.clock patience) = none := by
  let loop : Instruction := { op := .control .jmp, op1 := some (.label 1040) }
  let m : Machine Script :=
    { processor := (Processor.new 16 {} default).load #[loop]
      settings := { memorySize := 16, timeSlice := 0, stepsPerCheck := 4294967295 }
      compiled := true
      clock := { value := fun n => { instant := n } } }
  let ticks : Nat → Tick := fun _ => { clock := default, patience := 0, now := 0 }
  have consistent : m.Consistent := Idle.consistent ⟨rfl, rfl, rfl, rfl, rfl, rfl, rfl, rfl⟩
  have advances (j : Nat) (first : j ≤ 0) : (m.batchClock ticks j).Advances := by
    obtain rfl := Nat.le_zero.mp first
    intro n
    exact Nat.add_lt_add_left (by omega) _
  have alone : m.Alone ticks 0 :=
    ⟨rfl, ⟨rfl, rfl, rfl, rfl⟩, rfl, advances, fun _ _ => ⟨fun _ _ => rfl, rfl⟩⟩
  have spins : m.starting.Spins := ⟨alone.ready, rfl, {}, by decide +kernel⟩
  have endless : min m.sliceLength (m.runLength ticks) = ⊤ :=
    min_eq_top.mpr ⟨rfl, spins.lifetime_eq _⟩
  exact ⟨m, consistent, rfl, rfl, rfl, alone.run_eq_none rfl rfl rfl endless⟩

end Run

end ReducedX86.Machine
