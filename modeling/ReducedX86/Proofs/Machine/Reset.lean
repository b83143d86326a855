import ReducedX86.Proofs.Machine.Resemblance
import ReducedX86.Proofs.Processor.Equipment

/-!
A reset forgets the past.

What a machine with the default device is after a reset is told by its settings, its variables and
its program alone, apart from what blind programs do not see. So two machines that agree in these
cannot be told apart afterwards, whatever happened to them before.
-/
namespace ReducedX86

-- Two machines are compared field by field; what is in the registers and in the ports need not be
-- looked into.
attribute [local irreducible] RegisterFile.set Bytes.store

theorem Memory.limit_eq {m m' : Memory} (same : m.size = m'.size) : m.limit = m'.limit := by
  rw [limit, limit, same]

theorem Memory.size_fill? {m m' : Memory} {address : Word} {data : List UInt8}
    (filled : m.fill? address data = some m') : m'.size = m.size := by
  rw [fill?] at filled
  split at filled
  · cases filled
    exact Bytes.size_storeList ..
  · cases filled

theorem VariableTable.size_fillOne (m : Memory) (v : Variable) : (fillOne m v).size = m.size := by
  rw [fillOne]
  split
  · rename_i image known
    cases filled : m.fill? v.address image with
    | none => rfl
    | some m' => exact Memory.size_fill? filled
  · rfl

/-- The contents of variables go into the memory that there is. -/
theorem VariableTable.size_fill (t : VariableTable) (m : Memory) : (t.fill m).size = m.size := by
  have kept (entries : List Variable) (m : Memory) : (entries.foldl fillOne m).size = m.size := by
    induction entries generalizing m with
    | nil => rfl
    | cons v rest ih => exact (ih (fillOne m v)).trans (size_fillOne m v)
  exact kept t.entries m

/-- The memory has the size and the board the interval of the settings, and nothing is pending. -/
structure Equipment.Fits (settings : Settings) (e : Equipment Board) : Prop where
  memorySize : e.memorySize = settings.memorySize
  interval : e.device.defaultInterval = settings.timerInterval
  free : e.pendingTransfer = none

/-- A board takes every transfer at once and keeps its interval for a reset. -/
theorem Equipment.stable_fits (settings : Settings) : Equipment.Stable (Fits settings) where
  input {e} now port _ _ _ h :=
    ⟨h.memorySize, (e.device.defaultInterval_input now.wall port).trans h.interval, h.free⟩
  output {e} now port size buffer _ h :=
    ⟨h.memorySize, (e.device.defaultInterval_output now.instant port size buffer).trans h.interval, h.free⟩

namespace Machine

/-- The machine was made with these settings and the default device. -/
structure Fitted (settings : Settings) (m : Machine Board) : Prop where
  fits : m.processor.equipment.Fits settings
  settings : m.settings = settings

variable {settings : Settings} {m m' : Machine Board}

theorem fitted_new {wall : Nat} {draws : Feed Word}
    (isNew : Machine.new settings (Board.powerOn settings.timerInterval wall) draws = .ok m) :
    m.Fitted settings := by
  obtain rfl := eq_of_new isNew
  exact ⟨⟨Bytes.size_zeros _, rfl, rfl⟩, rfl⟩

theorem Fitted.free (h : m.Fitted settings) : m.processor.pendingTransfer = none := h.fits.free

theorem size_restarted {δ : Type} [PortDevice δ] (p : Processor δ) (table : VariableTable) :
    (restarted p table).memory.size = p.memory.size := by
  simp only [restarted, Processor.resetExecution, Processor.resetMemory, Processor.resetRegisters]
  exact (table.size_fill _).trans (Memory.size_clear _)

theorem Fitted.adjust (did : Adjusts m m') (h : m.Fitted settings) : m'.Fitted settings := by
  obtain ⟨fits, same⟩ := h
  cases did with
  | told | attended | marked | edited | asked =>
      exact ⟨⟨fits.memorySize, fits.interval, fits.free⟩, same⟩
  | polled now =>
      exact ⟨⟨fits.memorySize, (Board.defaultInterval_poll _ now).trans fits.interval, fits.free⟩,
        same⟩
  | resumed =>
      refine ⟨?_, same⟩
      rw [Processor.equipment_resumeTransfer]
      exact ⟨fits.memorySize, fits.interval, rfl⟩
  | loaded program => exact ⟨⟨fits.memorySize, fits.interval, rfl⟩, same⟩
  | reset =>
      obtain ⟨observers, eq⟩ := reset_eq m
      rw [eq]
      exact ⟨⟨(size_restarted _ _).trans fits.memorySize, fits.interval, rfl⟩, same⟩

theorem Fitted.of_path {steps : List (Stepping Board)} (path : Path m steps m')
    (h : m.Fitted settings) : m'.Fitted settings := by
  apply path.preserves h Fitted.adjust
  intro m stepping _ _ h
  have fits := Processor.step_equipment (Equipment.stable_fits settings) stepping h.fits
  exact ⟨⟨fits.memorySize, fits.interval, fits.free⟩, h.settings⟩

theorem Fitted.history (h : m.Fitted settings) {events : List Event}
    (led : m.history events = some m') : m'.Fitted settings :=
  h.of_path ((traces_history events).of_some led)

/-! What is left of a machine -/

/-- The machine without its observers and what a blind program does not see. What the clocks show and
the patience are its host's. -/
def essence (m : Machine Board) : Machine Board :=
  { m with
    processor := { m.processor with
      buffer := 0
      draws := default
      now := {}
      device := m.processor.device.withClock 0 }
    observers := {}
    clock := default
    patience := 0 }

theorem Resembles.essence (like : m.Resembles m') : m.essence = m'.essence := by
  obtain ⟨observers, buffer, draws, time, now, rfl⟩ := like
  let withDevice (device : Board) : Machine Board :=
    { m with
      processor := { m.processor with buffer := 0, draws := default, now := {}, device }
      observers := {}
      clock := default
      patience := 0 }
  exact congrArg withDevice (m.processor.device.withClock_withClock time 0).symm

/-- An essence with what it lacks; the clock port shows `time`. -/
def revived (e : Machine Board) (observers : Observers) (buffer : Word) (draws : Feed Word)
    (time : Nat) (now : Reading) (clock : Feed Reading) (patience : Nat) : Machine Board :=
  { e with
    processor := { e.processor with
      buffer, draws, now
      device := e.processor.device.withClock time }
    observers, clock, patience }

theorem attended_eq_revived (m : Machine Board) (clock : Feed Reading) (patience : Nat) :
    ∃ time, m.attended clock patience =
      revived m.essence m.observers m.processor.buffer m.processor.draws time m.processor.now clock
        patience := by
  obtain ⟨time, shown⟩ := m.processor.device.exists_withClock
  refine ⟨time, ?_⟩
  simp only [revived, essence, Board.withClock_withClock, ← shown]
  rfl

/-- Machines with one essence resemble each other while their hosts have the same clocks. -/
theorem resembles_attended (same : m.essence = m'.essence) (clock : Feed Reading)
    (patience : Nat) : (m.attended clock patience).Resembles (m'.attended clock patience) := by
  obtain ⟨time, first⟩ := m.attended_eq_revived clock patience
  obtain ⟨time', second⟩ := m'.attended_eq_revived clock patience
  rw [first, second, same]
  refine ⟨m'.observers, m'.processor.buffer, m'.processor.draws, time', m'.processor.now, ?_⟩
  simp only [revived, Board.withClock_withClock]

/-! What a reset leaves -/

/-- The contents of the variables in zeroed memory, and the first instruction next. -/
def pristineProcessor {δ : Type} (memorySize : Nat) (table : VariableTable)
    (program : Array Instruction) (device : δ) (draws : Feed Word) : Processor δ :=
  let limit := (Memory.zero memorySize).limit
  { memory := table.fill (.zero memorySize)
    registers := (RegisterFile.zero.set .eip limit).set .esp limit
    nextInstruction := limit
    program
    device
    draws }

theorem restarted_eq {δ : Type} [PortDevice δ] (p : Processor δ) (table : VariableTable) :
    restarted p table =
      { pristineProcessor p.memory.size table p.program (PortDevice.reset p.device p.now)
          p.draws with
        buffer := p.buffer
        now := p.now } := by
  have eip : (p.registers.set .eip p.limit).get .eip = p.limit :=
    p.registers.get_set_whole rfl p.limit
  have filled : (table.fill p.memory.clear).limit = p.limit :=
    Memory.limit_eq ((table.size_fill _).trans (Memory.size_clear _))
  have zeroed : (Memory.zero p.memory.size).limit = p.limit := Memory.limit_eq (Bytes.size_zeros _)
  have registers : (RegisterFile.zero.set .eip
      ((p.registers.set .eip p.limit).get .eip)).set .esp (table.fill p.memory.clear).limit =
        (RegisterFile.zero.set .eip p.limit).set .esp p.limit := by rw [eip, filled]
  simp only [pristineProcessor, zeroed, ← registers]
  rfl

/-- An idle machine that no call and no program has touched since its program was assembled. -/
def pristine (settings : Settings) (table : VariableTable) (program : Array Instruction)
    (artifacts : Artifacts) (compiled : Bool) : Machine Board where
  processor := pristineProcessor settings.memorySize table program
    (Board.powerOn settings.timerInterval 0) default
  settings := settings
  table := table
  artifacts := artifacts
  compiled := compiled

theorem Fitted.essence_reset (h : m.Fitted settings) :
    m.reset.2.essence = pristine settings m.table m.processor.program m.artifacts m.compiled := by
  obtain ⟨observers, eq⟩ := reset_eq m
  have memorySize : m.tock.processor.memory.size = settings.memorySize := h.fits.memorySize
  have device : (PortDevice.reset m.processor.device m.clock.head).withClock 0 =
      Board.powerOn settings.timerInterval 0 := by
    rw [← h.fits.interval]
    exact Board.powerOn_withClock 0 _ _
  rw [eq, restarted_eq, memorySize, pristine, ← device, ← h.settings]
  rfl

/-- A second reset finds nothing to end, and if it reads the same time it changes nothing. -/
theorem reset_reset (m : Machine Board) (clock : Feed Reading) (patience : Nat) :
    (m.reset.2.attended clock patience).reset.1 = false ∧
      (clock.head = m.reset.2.processor.now → ∃ observers,
        (m.reset.2.attended clock patience).reset.2 =
          { m.reset.2 with observers, patience, clock := clock.tail }) := by
  obtain ⟨told, first⟩ := reset_eq m
  obtain ⟨told', second⟩ := reset_eq (m.reset.2.attended clock patience)
  refine ⟨?_, fun same => ⟨told', ?_⟩⟩
  · change m.reset.2.isRunningOrWaiting = false
    rw [first]
    rfl
  · have again : restarted (restarted m.tock.processor m.table) m.table =
        restarted m.tock.processor m.table := by
      rw [restarted_eq (restarted m.tock.processor m.table), size_restarted]
      rw [restarted_eq m.tock.processor]
      rfl
    have read : (m.reset.2.attended clock patience).tock.processor =
        restarted m.tock.processor m.table := by
      change { m.reset.2.processor with now := clock.head } = _
      rw [same, first]
    rw [second, read]
    simp only [attended, first, again]

/-- What a reset does not touch. -/
theorem kept_reset {δ : Type} [PortDevice δ] (m : Machine δ) :
    m.reset.2.table = m.table ∧ m.reset.2.processor.program = m.processor.program ∧
      m.reset.2.artifacts = m.artifacts ∧ m.reset.2.compiled = m.compiled := by
  obtain ⟨observers, eq⟩ := reset_eq m
  rw [eq]
  exact ⟨rfl, rfl, rfl, rfl⟩

/-! Histories after a reset -/

/-- What the calls of a history answer, as far as they return. -/
def replies {δ : Type} [PortDevice δ] (m : Machine δ) : List Event → List (Option Reply)
  | [] => []
  | e :: rest => (m.attended e.clock e.patience).reply e.call :: (m.meet e).elim [] (·.replies rest)

/-- Machines with one essence cannot be told apart by a history of blind steps. -/
theorem history_of_essence (h : m.Fitted settings) (same : m.essence = m'.essence)
    (events : List Event) (blind : BlindSteps (m.stepsAlong events)) :
    m.replies events = m'.replies events ∧
      (m.history events).map essence = (m'.history events).map essence := by
  induction events generalizing m m' with
  | nil => exact ⟨rfl, congrArg some same⟩
  | cons e rest ih =>
      obtain ⟨here, later⟩ := blindSteps_append.mp blind
      have like := resembles_attended same e.clock e.patience
      obtain ⟨answered, alike⟩ := like.perform h.free e.call here
      have alike : Option.Rel Resembles (m.meet e) (m'.meet e) := alike
      rw [replies, replies, Machine.history, Machine.history, answered]
      cases met : m.meet e with
      | none =>
          rw [met] at alike
          generalize m'.meet e = result' at alike ⊢
          cases alike
          exact ⟨rfl, rfl⟩
      | some n =>
          rw [met] at alike later
          generalize m'.meet e = result' at alike ⊢
          cases alike with
          | some alike =>
              obtain ⟨answers, ended⟩ :=
                ih (h.of_path ((traces_meet e).of_some met)) alike.essence later
              exact ⟨congrArg _ answers, ended⟩

theorem Fitted.attended (h : m.Fitted settings) (clock : Feed Reading) (patience : Nat) :
    (m.attended clock patience).Fitted settings :=
  ⟨h.fits, h.settings⟩

/-- A reset leaves what the settings, the variables and the program say, whatever came before. After it
two machines answer the same calls at the same times alike and stay the same, as long as what they
execute neither reads the clock port nor draws a random number; and another reset finds nothing to
end and changes nothing. The exchange buffer, the observers and the clock port are not meant. -/
theorem reset_forgets_past {settings : Settings} {wall wall' : Nat} {draws draws' : Feed Word}
    {made made' before before' : Machine Board}
    (isNew : Machine.new settings (Board.powerOn settings.timerInterval wall) draws = .ok made)
    (isNew' : Machine.new settings (Board.powerOn settings.timerInterval wall') draws' = .ok made')
    {past past' : List Event} (led : made.history past = some before)
    (led' : made'.history past' = some before')
    (table : before.table = before'.table)
    (program : before.processor.program = before'.processor.program)
    (artifacts : before.artifacts = before'.artifacts)
    (compiled : before.compiled = before'.compiled)
    (clock clock' : Feed Reading) (patience patience' : Nat) :
    let m := (before.attended clock patience).reset.2
    let m' := (before'.attended clock' patience').reset.2
    m.essence = pristine settings m.table m.processor.program m.artifacts m.compiled ∧
      m'.essence = m.essence ∧
      (∀ events : List Event, BlindSteps (m.stepsAlong events) →
        m.replies events = m'.replies events ∧
          (m.history events).map essence = (m'.history events).map essence) ∧
      ∀ later patience'', (m.attended later patience'').reset.1 = false ∧
        (m.attended later patience'').reset.2.essence = m.essence ∧
        (later.head = m.processor.now → ∃ observers, (m.attended later patience'').reset.2 =
          { m with observers, clock := later.tail, patience := patience'' }) := by
  intro m m'
  have fitted := ((fitted_new isNew).history led).attended clock patience
  have fitted' := ((fitted_new isNew').history led').attended clock' patience'
  have fresh : m.Fitted settings := fitted.adjust .reset
  obtain ⟨keptTable, keptProgram, keptArtifacts, keptCompiled⟩ :=
    kept_reset (before.attended clock patience)
  have left : m.essence = pristine settings m.table m.processor.program m.artifacts m.compiled := by
    rw [keptTable, keptProgram, keptArtifacts, keptCompiled]
    exact fitted.essence_reset
  have same : m'.essence = m.essence := by
    rw [fitted'.essence_reset, fitted.essence_reset]
    change pristine settings before'.table before'.processor.program before'.artifacts
      before'.compiled = _
    rw [← table, ← program, ← artifacts, ← compiled]
    rfl
  refine ⟨left, same, fun events blind => history_of_essence fresh same.symm events blind,
    fun later patience'' => ?_⟩
  obtain ⟨quiet, unchanged⟩ := reset_reset (before.attended clock patience) later patience''
  refine ⟨quiet, ?_, unchanged⟩
  rw [(fresh.attended later patience'').essence_reset, left]
  rfl

theorem reset_forgets_past_timer :
    let fresh : Machine Board :=
      { processor := .new 16 (.powerOn 100 0) default, settings := { memorySize := 16 } }
    let ticking : Feed Reading := { value := fun n => { instant := n, wall := n } }
    let past : List Event := [⟨ticking, 0, .assemble "inc eax\nout 8, al\nhlt"⟩]
    let past' := past ++ [⟨ticking, 4, .run⟩, ⟨ticking, 4, .requestInterrupt 40⟩]
    let again : List Event := [⟨ticking, 4, .run⟩]
    ∃ before before', fresh.history past = some before ∧ fresh.history past' = some before' ∧
      before'.processor.interruptQueue = [40] ∧
      before'.processor.device.timers ≠ before.processor.device.timers ∧
      let m := (before.attended ticking 0).reset.2
      let m' := (before'.attended ticking 0).reset.2
      m'.essence = m.essence ∧ (m.history again).isSome ∧
        (m.history again).map essence = (m'.history again).map essence := by
  intro fresh ticking past past' again
  have isNew : Machine.new { memorySize := 16 } (Board.powerOn 100 0) default = .ok fresh := rfl
  have queued : (fresh.history past').map (·.processor.interruptQueue) = some [40] := by
    decide +kernel
  have armed : (fresh.history past').map (·.processor.device.timers) ≠
      (fresh.history past).map (·.processor.device.timers) := by decide +kernel
  have kept : (fresh.history past).map (fun m => (m.table, m.processor.program, m.artifacts,
      m.compiled)) = (fresh.history past').map (fun m => (m.table, m.processor.program, m.artifacts,
      m.compiled)) := by decide +kernel
  have programs : (fresh.history past).any fun before =>
      let m := (before.attended ticking 0).reset.2
      (m.history again).isSome && (m.stepsAlong again).all fun s =>
        s.2.program.map (·.op) == #[.arithmetic .inc, .port .output, .control .hlt] := by
    decide +kernel
  obtain ⟨before, led, programs⟩ := (Option.any_eq_true _ _).mp programs
  obtain ⟨returns, programs⟩ := Bool.and_eq_true_iff.mp programs
  obtain ⟨before', led', queued⟩ := Option.map_eq_some_iff.mp queued
  rw [led, led', Option.map_some, Option.map_some, Option.some.injEq] at kept
  rw [led, led', Option.map_some, Option.map_some, ne_eq, Option.some.injEq] at armed
  simp only [Prod.mk.injEq] at kept
  obtain ⟨table, program, artifacts, compiled⟩ := kept
  obtain ⟨-, same, alike, -⟩ := reset_forgets_past isNew isNew led led' table program artifacts
    compiled ticking ticking 0 0
  refine ⟨before, before', led, led', queued, armed, same, returns, (alike again ?_).2⟩
  intro s member
  apply Processor.blind_of_program
  intro i found
  have known := Array.mem_map_of_mem (f := (·.op)) found
  rw [beq_iff_eq.mp (List.all_eq_true.mp programs s member)] at known
  generalize i.op = op at known ⊢
  simp only [List.mem_toArray, List.mem_cons, List.not_mem_nil, or_false] at known
  obtain rfl | rfl | rfl := known <;> simp

end Machine

end ReducedX86
