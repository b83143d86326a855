import ReducedX86.Proofs.Device.Timers
import ReducedX86.Proofs.Machine.Compilation
import ReducedX86.Proofs.Machine.Resting
import ReducedX86.Proofs.Processor.Requests

/-!
What becomes of a machine whose program asks for a reset.

A step that writes to the reset port is the last one of its call, and the machine is then as after any
other reset. Only the requests that the call goes on with are too late for it: if several timers are
due at one tick and the reset comes when the first of them wakes the program, then the interrupts of
the others wait in the queue of a machine that has just been reset.
-/
namespace ReducedX86

namespace Board

/-- What a program and the board exchange at once. -/
inductive Transfer
  | input (now : Reading) (port : Word) (size : Nat) (buffer : Word)
  | output (now : Reading) (port : Word) (size : Nat) (buffer : Word)

def exchanged (b : Board) : Transfer → Board
  | .input now port size buffer => (PortDevice.input b now port size buffer).2.2
  | .output now port size buffer => (PortDevice.output b now port size buffer).2

/-- A byte other than zero is written to the reset port. -/
def Transfer.asksReset : Transfer → Bool
  | .input .. => false
  | .output _ port size buffer =>
      covers port size resetPort && buffer.byte (resetPort - port.toNat) != 0

variable (b : Board)

theorem resetRequested_exchanged (t : Transfer) :
    (b.exchanged t).resetRequested = (t.asksReset || b.resetRequested) := by
  cases t with
  | input now port size buffer => exact b.resetRequested_input now.wall port
  | output now port size buffer => exact b.resetRequested_output now.instant port size buffer

theorem resetRequested_foldl (transfers : List Transfer) :
    (transfers.foldl exchanged b).resetRequested =
      (transfers.any Transfer.asksReset || b.resetRequested) := by
  induction transfers generalizing b with
  | nil => rfl
  | cons t rest ih =>
      rw [List.foldl_cons, ih, resetRequested_exchanged, List.any_cons, ← Bool.or_assoc,
        Bool.or_comm t.asksReset]

end Board

/-- All that a board has been through are transfers. -/
theorem Equipment.stable_exchanged (b : Board) :
    Stable fun e => ∃ transfers : List Board.Transfer,
      e.device = transfers.foldl Board.exchanged b where
  input {e} now port size buffer _ h := by
    obtain ⟨transfers, device⟩ := h
    refine ⟨transfers ++ [.input now port size buffer], ?_⟩
    rw [List.foldl_append, ← device]
    rfl
  output {e} now port size buffer _ h := by
    obtain ⟨transfers, device⟩ := h
    refine ⟨transfers ++ [.output now port size buffer], ?_⟩
    rw [List.foldl_append, ← device]
    rfl

namespace Machine

/-! The step that asks -/

/-- In the step the program writes a byte other than zero to the reset port. -/
def AsksReset (s : Stepping Board) : Prop :=
  ∃ transfers : List Board.Transfer,
    (s.2.step s.1).2.device = transfers.foldl Board.exchanged s.2.device ∧
      transfers.any Board.Transfer.asksReset

/-- After the step the board knows that a reset was asked for. -/
def raises (s : Stepping Board) : Bool := (s.2.step s.1).2.device.resetRequested

theorem raises_of_asksReset {s : Stepping Board} (asks : AsksReset s) : raises s := by
  obtain ⟨transfers, device, asked⟩ := asks
  rw [raises, device, Board.resetRequested_foldl, asked, Bool.true_or]

/-- The board knows of nothing but a write to the reset port. -/
theorem asksReset_iff_raises {s : Stepping Board} (calm : s.2.device.resetRequested = false) :
    AsksReset s ↔ raises s := by
  refine ⟨raises_of_asksReset, fun raised => ?_⟩
  obtain ⟨transfers, device⟩ :=
    Processor.step_equipment (Equipment.stable_exchanged s.2.device) s.1 ⟨[], rfl⟩
  refine ⟨transfers, device, ?_⟩
  have device : (s.2.step s.1).2.device = transfers.foldl Board.exchanged s.2.device := device
  rwa [raises, device, Board.resetRequested_foldl, calm, Bool.or_false] at raised

/-! A machine that has just been reset -/

variable {settings : Settings} {m m' m'' : Machine Board}

/-- The machine as it is after a reset. -/
def fresh (settings : Settings) (m : Machine Board) : Machine Board :=
  pristine settings m.table m.processor.program m.artifacts m.compiled

def withQueue (m : Machine Board) (queue : List UInt8) : Machine Board :=
  { m with processor := { m.processor with interruptQueue := queue } }

theorem fresh_congr (same : m'.preparation = m.preparation) :
    fresh settings m' = fresh settings m := by
  simp only [preparation, Prod.mk.injEq] at same
  obtain ⟨table, artifacts, compiled, program, -⟩ := same
  rw [fresh, table, artifacts, compiled, program, fresh]

theorem takeResetRequest_of_calm (calm : m.Calm) : m.takeResetRequest = (false, m) := by
  have calm : m.processor.device.resetRequested = false := calm
  have known : PortDevice.takeResetRequest m.processor.device = (false, m.processor.device) :=
    Prod.ext calm
      (congrArg (fun asked => { m.processor.device with resetRequested := asked }) calm.symm)
  rw [Machine.takeResetRequest, known]
  rfl

theorem takeResetRequest_of_asked (fitted : m.Fitted settings)
    (asked : m.processor.device.resetRequested = true) :
    ∃ m', m.takeResetRequest = (true, m') ∧ m'.essence = fresh settings m := by
  have known : (PortDevice.takeResetRequest m.processor.device).1 = true := asked
  refine ⟨_, ?_, (fitted.adjust .asked).essence_reset⟩
  rw [Machine.takeResetRequest]
  simp only [known, ↓reduceIte]

theorem preparation_clearDebugRequest (m : Machine Board) :
    m.clearDebugRequest.preparation = m.preparation := by
  rw [clearDebugRequest]
  split <;> rfl

theorem preparation_finishRun (m : Machine Board) : m.finishRun.preparation = m.preparation :=
  m.preparation_clearDebugRequest

/-! What steps come to -/

/-- What has become of a machine after steps. The first of them that asks for a reset is the last
one, and leaves the machine fresh; by now requests may wait there. -/
inductive Heeds (settings : Settings) (m : Machine Board) (steps : List (Stepping Board))
    (queue : List UInt8) : Option (Machine Board) → Prop
  | hangs (unasked : ∀ s ∈ steps, raises s = false) : Heeds settings m steps queue none
  | goesOn {m' : Machine Board} (unasked : ∀ s ∈ steps, raises s = false)
      (same : m'.preparation = m.preparation) : Heeds settings m steps queue (some m')
  | resets {m' : Machine Board} (before : List (Stepping Board)) (last : Stepping Board)
      (order : steps = before ++ [last]) (unasked : ∀ s ∈ before, raises s = false)
      (asked : raises last) (essence : m'.essence = (fresh settings m).withQueue queue) :
      Heeds settings m steps queue (some m')

namespace Heeds

variable {steps more : List (Stepping Board)} {queue : List UInt8} {result : Option (Machine Board)}

theorem none (same : m'.preparation = m.preparation) : Heeds settings m [] queue (some m') :=
  .goesOn (List.forall_mem_nil _) same

theorem after (later : Heeds settings m' more queue result) (unasked : ∀ s ∈ steps, raises s = false)
    (same : m'.preparation = m.preparation) : Heeds settings m (steps ++ more) queue result := by
  cases later with
  | hangs unasked' => exact .hangs (List.forall_mem_append.mpr ⟨unasked, unasked'⟩)
  | goesOn unasked' same' =>
      exact .goesOn (List.forall_mem_append.mpr ⟨unasked, unasked'⟩) (same'.trans same)
  | resets before last order unasked' asked essence =>
      refine .resets (steps ++ before) last ?_ (List.forall_mem_append.mpr ⟨unasked, unasked'⟩)
        asked ?_
      · rw [order, List.append_assoc]
      · rw [essence, fresh_congr same]

theorem of_same (later : Heeds settings m' steps queue result)
    (same : m'.preparation = m.preparation) : Heeds settings m steps queue result :=
  later.after (List.forall_mem_nil _) same

end Heeds

/-- After a step the machine looks whether a reset was asked for, and resets or knows that none was. -/
theorem heeds_step (stepping running : Bool) (observers : Observers) (fitted : m.Fitted settings) :
    let n := m.advanced stepping running observers
    n.preparation = m.preparation ∧ n.Fitted settings ∧
      (raises (stepping, m.processor) = true → ∃ m', n.takeResetRequest = (true, m') ∧
        Heeds settings m [(stepping, m.processor)] [] (some m')) ∧
      (raises (stepping, m.processor) = false → n.Calm ∧ n.takeResetRequest = (false, n)) := by
  intro n
  have same : n.preparation = m.preparation := by
    have program := Processor.program_step stepping m.processor
    have memorySize := Processor.memorySize_step stepping m.processor
    simp only [preparation, n, advanced, program, memorySize]
  have fits := Processor.step_equipment (Equipment.stable_fits settings) stepping fitted.fits
  have fitted' : n.Fitted settings :=
    ⟨⟨fits.memorySize, fits.interval, fits.free⟩, fitted.settings⟩
  refine ⟨same, fitted', fun raised => ?_, fun calm => ⟨calm, takeResetRequest_of_calm calm⟩⟩
  obtain ⟨m', taken, essence⟩ := takeResetRequest_of_asked fitted' raised
  refine ⟨m', taken, .resets [] _ rfl (List.forall_mem_nil _) raised ?_⟩
  rw [essence, fresh_congr same]
  rfl

theorem Fitted.shown (fitted : m.Fitted settings) (now : Reading) (clock : Feed Reading) :
    (m.shown now clock).Fitted settings :=
  ⟨⟨fitted.fits.memorySize, fitted.fits.interval, fitted.free⟩, fitted.settings⟩

theorem heeds_runTurns (started : Time) (turns : Nat) (count : Word) (fitted : m.Fitted settings) :
    Heeds settings m (loopSteps started turns count m) [] (runTurns started turns count m) := by
  refine loop_induction
    (P := fun m steps result => m.Fitted settings → Heeds settings m steps [] result)
    ?broken ?finished ?next started turns count m fitted
  case broken => exact fun _ _ => .hangs (List.forall_mem_nil _)
  case finished =>
    intro m m' steps turned fitted
    cases turned with
    | ended rests => exact .none m.preparation_finishRun
    | paused going now clock resumeAt => exact .none rfl
    | reset going now clock observers told asked =>
        obtain ⟨-, -, resets, goesOn⟩ :=
          heeds_step false m.running observers (fitted.shown now clock)
        cases raised : raises (false, (m.shown now clock).processor) with
        | true =>
            obtain ⟨last, taken, heeds⟩ := resets raised
            rw [taken] at asked
            cases asked
            exact heeds.of_same rfl
        | false =>
            rw [(goesOn raised).2] at asked
            cases asked
  case next =>
    intro m count m' steps more result turned rest fitted
    cases turned with
    | stepped going now clock observers told count unasked =>
        obtain ⟨same, fitted', resets, goesOn⟩ :=
          heeds_step false m.running observers (fitted.shown now clock)
        cases raised : raises (false, (m.shown now clock).processor) with
        | true =>
            obtain ⟨last, taken, -⟩ := resets raised
            rw [taken] at unasked
            cases unasked
        | false =>
            rw [(goesOn raised).2] at unasked
            cases unasked
            exact (rest fitted').after (List.forall_mem_singleton.mpr raised) same

theorem heeds_runBatch (fitted : m.Fitted settings) : Heeds settings m m.batch [] m.runBatch := by
  have begun : m.launched.Fitted settings ∧ m.launched.preparation = m.preparation := by
    rw [launched]
    simp only
    split <;> exact ⟨⟨⟨fitted.fits.memorySize, fitted.fits.interval, fitted.free⟩, fitted.settings⟩,
      rfl⟩
  exact (heeds_runTurns _ _ _ begun.1).of_same begun.2

theorem heeds_stepOnce (fitted : m.Fitted settings) :
    Heeds settings m [(true, m.poised.processor)] [] (some m.stepOnce) := by
  obtain ⟨observers, told⟩ := reportFaults_advanced m.poised true
  have poised : m.poised.Fitted settings :=
    ⟨⟨fitted.fits.memorySize, fitted.fits.interval, fitted.free⟩, fitted.settings⟩
  obtain ⟨same, -, resets, goesOn⟩ := heeds_step true false observers poised
  rw [stepOnce_eq told]
  cases raised : raises (true, m.poised.processor) with
  | true =>
      obtain ⟨m', taken, heeds⟩ := resets raised
      simp only [taken]
      exact heeds.of_same rfl
  | false =>
      obtain ⟨-, taken⟩ := goesOn raised
      simp only [taken]
      exact .goesOn (List.forall_mem_singleton.mpr raised)
        ((preparation_clearDebugRequest _).trans same)

theorem heeds_wake (fitted : m.Fitted settings) : Heeds settings m m.wakeSteps [] m.wake := by
  rw [wake, wakeSteps]
  split
  · exact .none rfl
  · split
    · exact .none rfl
    · split
      · simp only
        split
        · exact .none rfl
        · have fitted' : ({ m with continues := false } : Machine Board).Fitted settings :=
            ⟨fitted.fits, fitted.settings⟩
          exact (heeds_runBatch fitted').of_same rfl
      · exact .none rfl

theorem heeds_requestInterrupt (number : Word) (fitted : m.Fitted settings) :
    Heeds settings m (requestSteps number m) [] (after (requestInterrupt number) m) := by
  rw [after_requestInterrupt, requestSteps_eq]
  split
  · have fitted' : (m.requested number).Fitted settings :=
      fitted.adjust (.edited m.processor.fault m.processor.faultLog false
        m.processor.debugRequest
        (Processor.enqueue (UInt8.ofNat number.toNat) m.processor.interruptQueue)
        m.processor.buffer m.processor.now (.inr rfl))
    exact (heeds_wake fitted').of_same rfl
  · exact .none rfl

/-! Requests that come after a reset -/

theorem essence_requestInterrupt {queue : List UInt8} {number : UInt8}
    (reset : m'.essence = (fresh settings m).withQueue queue) (admitted : 32 ≤ number)
    (last : ∀ n ∈ queue, n < number) :
    ∃ m'', after (requestInterrupt (UInt32.ofNat number.toNat)) m' = some m'' ∧
      m''.essence = (fresh settings m).withQueue (queue ++ [number]) := by
  have free : m'.processor.pendingTransfer = none :=
    congrArg (fun e => e.processor.pendingTransfer) reset
  have awake : m'.processor.halted = false := congrArg (fun e => e.processor.halted) reset
  have queued : m'.processor.interruptQueue = queue :=
    congrArg (fun e => e.processor.interruptQueue) reset
  have stepPending : m'.stepPending = false := congrArg Machine.stepPending reset
  have continues : m'.continues = false := congrArg Machine.continues reset
  have woken : (m'.withQueue (queue ++ [number])).wake =
      some (m'.withQueue (queue ++ [number])) := by
    simp only [wake, withQueue, hasPendingTransfer, free, stepPending, continues, Option.isSome_none,
      Bool.false_eq_true, ↓reduceIte]
  obtain ⟨legal, understood⟩ := Processor.requestable_of_external admitted
  have accepted : m'.requested (UInt32.ofNat number.toNat) = m'.withQueue (queue ++ [number]) := by
    rw [requested, understood, queued, Processor.enqueue_of_lt last, ← awake]
    rfl
  refine ⟨m'.withQueue (queue ++ [number]), ?_, congrArg (·.withQueue (queue ++ [number])) reset⟩
  rw [after_requestInterrupt, if_pos legal, accepted, woken]

theorem essence_requestAll {queue numbers : List UInt8}
    (reset : m'.essence = (fresh settings m).withQueue queue)
    (admitted : ∀ n ∈ numbers, 32 ≤ n) (sorted : (queue ++ numbers).Pairwise (· < ·)) :
    ∃ m'', requestAll m' numbers = some m'' ∧
      m''.essence = (fresh settings m).withQueue (queue ++ numbers) := by
  induction numbers generalizing m' queue with
  | nil =>
      rw [List.append_nil]
      exact ⟨m', rfl, reset⟩
  | cons number rest ih =>
      obtain ⟨here, later⟩ := List.forall_mem_cons.mp admitted
      have last : ∀ n ∈ queue, n < number := fun n waits =>
        (List.pairwise_append.mp sorted).2.2 n waits number List.mem_cons_self
      obtain ⟨next, ran, reset⟩ := essence_requestInterrupt reset here last
      rw [requestAll_cons, List.append_cons queue number rest, ran]
      rw [List.append_cons] at sorted
      exact ih reset later sorted

/-- Those of the numbers whose requests come after a reset that an earlier one has led to. -/
def leftover : List UInt8 → Machine Board → List UInt8
  | [], _ => []
  | number :: rest, m =>
      if (requestSteps (UInt32.ofNat number.toNat) m).any raises then rest
      else (after (requestInterrupt (UInt32.ofNat number.toNat)) m).elim [] (leftover rest)

theorem leftover_of_unasked {numbers : List UInt8}
    (unasked : ∀ s ∈ requestAllSteps numbers m, raises s = false) : leftover numbers m = [] := by
  induction numbers generalizing m with
  | nil => rfl
  | cons number rest ih =>
      rw [requestAllSteps, List.forall_mem_append] at unasked
      rw [leftover, if_neg (by simpa using unasked.1)]
      cases ran : after (requestInterrupt (UInt32.ofNat number.toNat)) m with
      | none => rfl
      | some m' =>
          rw [ran] at unasked
          exact ih unasked.2

theorem leftover_suffix (numbers : List UInt8) : leftover numbers m <:+ numbers.tail := by
  induction numbers generalizing m with
  | nil => exact List.nil_suffix
  | cons number rest ih =>
      rw [leftover]
      split
      · exact List.suffix_refl rest
      · cases after (requestInterrupt (UInt32.ofNat number.toNat)) m with
        | none => exact List.nil_suffix
        | some m' => exact ih.trans (List.tail_suffix rest)

theorem heeds_requestAll {numbers : List UInt8} (fitted : m.Fitted settings)
    (admitted : ∀ n ∈ numbers, 32 ≤ n) (sorted : numbers.Pairwise (· < ·)) :
    Heeds settings m (requestAllSteps numbers m) (leftover numbers m) (requestAll m numbers) := by
  induction numbers generalizing m with
  | nil => exact .none rfl
  | cons number rest ih =>
      obtain ⟨-, later⟩ := List.forall_mem_cons.mp admitted
      have sorted := sorted.of_cons
      have traces := traces_requestInterrupt (m := m) (UInt32.ofNat number.toNat)
      have heeds := heeds_requestInterrupt (UInt32.ofNat number.toNat) fitted
      rw [requestAllSteps, requestAll_cons, leftover]
      generalize after (requestInterrupt (UInt32.ofNat number.toNat)) m = result at traces heeds ⊢
      cases heeds with
      | hangs unasked =>
          rw [Option.elim_none, List.append_nil]
          exact .hangs unasked
      | goesOn unasked same =>
          rw [if_neg (by simpa using unasked)]
          exact (ih (fitted.of_path traces) later sorted).after unasked same
      | @resets m' before last order unasked asked essence =>
          have raised : (requestSteps (UInt32.ofNat number.toNat) m).any raises := by
            rw [order, List.any_append, List.any_cons, asked, Bool.true_or, Bool.or_true]
          have resting : m'.Resting :=
            ⟨congrArg Machine.running essence, congrArg Machine.continues essence⟩
          obtain ⟨m'', ran, essence⟩ := essence_requestAll essence later sorted
          rw [if_pos raised, Option.elim_some, (resting.requestAll rest).2, List.append_nil,
            Option.bind_some, ran]
          exact .resets before last order unasked asked essence

/-! Ticks -/

theorem heeds_goOn (fitted : m.Fitted settings) (now : Time) :
    Heeds settings m (m.goOnSteps now) [] (m.goOn now) := by
  have fitted' : ({ m with resumeAt := none } : Machine Board).Fitted settings :=
    ⟨fitted.fits, fitted.settings⟩
  rw [goOn.eq_def, goOnSteps]
  split
  · simp only
    split
    · exact (heeds_runBatch fitted').of_same rfl
    · exact .none rfl
  · exact .none rfl

/-- The requests of a call for which its reset comes too early. -/
def stranded (m : Machine Board) : Call → List UInt8
  | .tick now => leftover (PortDevice.poll m.processor.device now).1 (m.polled now)
  | _ => []

theorem heeds_tick (fitted : m.Fitted settings) (calm : m.Calm) (now : Time) :
    Heeds settings m (m.tickSteps now) (m.stranded (.tick now)) (m.tick now) := by
  have polls : Path m [] (m.polled now) := .of_adjust (.polled now)
  have admitted : ∀ n ∈ (PortDevice.poll m.processor.device now).1, 32 ≤ n := by
    intro n listed
    obtain ⟨i, -, rfl⟩ := Board.mem_poll_iff.mp listed
    exact Board.le_interruptOf i
  have heeds := (heeds_requestAll (fitted.of_path polls) admitted
    (Board.pairwise_poll now)).of_same (m := m) rfl
  have traces := Traces.after polls
    (traces_requestAll (PortDevice.poll m.processor.device now).1)
  rw [tick_eq, tickSteps]
  have unstranded (unasked : ∀ s ∈ requestAllSteps (PortDevice.poll m.processor.device now).1
      (m.polled now), raises s = false) : m.stranded (.tick now) = [] := leftover_of_unasked unasked
  generalize requestAll (m.polled now) (PortDevice.poll m.processor.device now).1 = result
    at heeds traces ⊢
  cases heeds with
  | hangs unasked =>
      rw [Option.elim_none, List.append_nil]
      exact .hangs unasked
  | goesOn unasked same =>
      rw [unstranded unasked, Option.elim_some, Option.bind_some,
        takeResetRequest_of_calm (calm.of_path traces)]
      exact (heeds_goOn (fitted.of_path traces) now).after unasked same
  | @resets m' before last order unasked asked essence =>
      have unpaused : m'.resumeAt = none := congrArg Machine.resumeAt essence
      obtain ⟨ended, none⟩ := goOn_of_none unpaused now
      rw [Option.elim_some, Option.bind_some, takeResetRequest_of_calm (calm.of_path traces)]
      simp only
      rw [ended, none, List.append_nil]
      exact .resets before last order unasked asked essence

/-- Whatever call takes steps, one that asks for a reset is the last of them. -/
theorem heeds_perform (fitted : m.Fitted settings) (calm : m.Calm) {c : Call}
    (works : m.stepsOf c ≠ []) : Heeds settings m (m.stepsOf c) (m.stranded c) (m.perform c) := by
  cases c with
  | run =>
      rw [perform, after_run, stepsOf]
      split
      · exact heeds_runBatch fitted
      · exact .none rfl
  | step =>
      rw [perform, after_step, stepsOf]
      split
      · exact heeds_stepOnce fitted
      · exact .none rfl
  | requestInterrupt number => exact heeds_requestInterrupt number fitted
  | resumeTransfer =>
      -- A board takes every transfer at once, so there is none to complete.
      rw [stepsOf, resumeSteps, hasPendingTransfer, fitted.free] at works
      exact absurd rfl works
  | tick now => exact heeds_tick fitted calm now
  | _ => exact absurd rfl works

/-- A step that asks for a reset ends its call, which returns. The machine is then as a reset leaves it,
but for the requests of a tick at which several timers are due: if the interrupt of one of them has led
to the reset, then those of the later ones wait in the queue. -/
theorem reset_request_takes_effect {settings : Settings} {wall : Nat} {draws : Feed Word}
    {made before : Machine Board}
    (isNew : Machine.new settings (Board.powerOn settings.timerInterval wall) draws = .ok made)
    {past : List Event} (led : made.history past = some before) (clock : Feed Reading)
    (patience : Nat) (c : Call) (s : Stepping Board)
    (taken : s ∈ (before.attended clock patience).stepsOf c) (asks : AsksReset s) :
    let m := before.attended clock patience
    (∃ earlier, m.stepsOf c = earlier ++ [s] ∧ ∀ s' ∈ earlier, ¬ AsksReset s') ∧
      (∃ m', m.perform c = some m' ∧ m'.essence =
        (pristine settings m.table m.processor.program m.artifacts m.compiled).withQueue
          (m.stranded c)) ∧
      (m.stranded c = [] ∨ ∃ now, c = .tick now ∧
        m.stranded c <:+ (PortDevice.poll m.processor.device now).1.tail) := by
  intro m
  have fitted : m.Fitted settings := ((fitted_new isNew).history led).attended clock patience
  have begins : made.Calm := by
    obtain rfl := eq_of_new isNew
    rfl
  have calm : before.Calm := begins.of_path ((traces_history past).of_some led)
  have silent {s' : Stepping Board} (unasked : raises s' = false) : ¬ AsksReset s' := fun asks' =>
    Bool.false_ne_true (unasked.symm.trans (raises_of_asksReset asks'))
  have early : m.stranded c = [] ∨ ∃ now, c = .tick now ∧
      m.stranded c <:+ (PortDevice.poll m.processor.device now).1.tail := by
    cases c with
    | tick now => exact .inr ⟨now, rfl, leftover_suffix _⟩
    | _ => exact .inl rfl
  have taken : s ∈ m.stepsOf c := taken
  have heeds := heeds_perform fitted calm (List.ne_nil_of_mem taken)
  generalize m.perform c = result at heeds ⊢
  cases heeds with
  | hangs unasked | goesOn unasked => exact absurd asks (silent (unasked s taken))
  | resets earlier last order unasked asked essence =>
      rw [order] at taken
      rcases List.mem_append.mp taken with first | final
      · exact absurd asks (silent (unasked s first))
      · cases List.mem_singleton.mp final
        exact ⟨⟨earlier, order, fun s' member => silent (unasked s' member)⟩, ⟨_, rfl, essence⟩,
          early⟩

/-- Two timers fall due within ten seconds and some milliseconds, as the clock goes on while they are
armed. At a tick after twenty the first interrupt brings the program to ask for a reset. -/
theorem reset_request_takes_effect_late :
    let fresh : Machine Board :=
      { processor := .new 16 (.powerOn 10000 0) default
        settings := { memorySize := 16, timerInterval := 10000 } }
    let since (start : Nat) : Feed Reading :=
      { value := fun n => { instant := milliseconds (start + n), wall := start + n } }
    let past : List Event :=
      [⟨since 0, 0, .assemble "mov ax, 257\nout 8, ax\nhlt\nout 255, al"⟩, ⟨since 1, 9, .run⟩]
    let late := milliseconds 20000
    ∃ before m', fresh.history past = some before ∧
      let m := before.attended (since 20000) 9
      (PortDevice.poll m.processor.device late).1 = [32, 33] ∧
        (∀ deadline ∈ m.processor.device.timers.toList, ∀ time ∈ deadline, time < late) ∧
        (∃ s ∈ m.stepsOf (.tick late), AsksReset s) ∧ m.stranded (.tick late) = [33] ∧
        m.perform (.tick late) = some m' ∧ m'.processor.interruptQueue = [33] := by
  intro fresh since past late
  have isNew : Machine.new { memorySize := 16, timerInterval := 10000 } (Board.powerOn 10000 0)
      default = .ok fresh := rfl
  have run : (fresh.history past).any fun before =>
      let m := before.attended (since 20000) 9
      (PortDevice.poll m.processor.device late).1 = [32, 33] ∧
        (∀ deadline ∈ m.processor.device.timers.toList, ∀ time ∈ deadline, time < late) ∧
        (∀ s ∈ m.stepsOf (.tick late), s.2.device.resetRequested = false) ∧
        (∃ s ∈ m.stepsOf (.tick late), raises s) ∧ m.stranded (.tick late) = [33] := by
    decide +kernel
  obtain ⟨before, led, run⟩ := (Option.any_eq_true _ _).mp run
  obtain ⟨due, passed, calm, ⟨s, taken, raised⟩, stranded⟩ := of_decide_eq_true run
  have asks := (asksReset_iff_raises (calm s taken)).mpr raised
  obtain ⟨-, ⟨m', returned, essence⟩, -⟩ :=
    reset_request_takes_effect isNew led (since 20000) 9 (.tick late) s taken asks
  have queue : m'.processor.interruptQueue = (before.attended (since 20000) 9).stranded (.tick late) :=
    congrArg (fun e => e.processor.interruptQueue) essence
  exact ⟨before, m', led, due, passed, ⟨s, taken, asks⟩, stranded, returned, queue.trans stranded⟩

end Machine

end ReducedX86
