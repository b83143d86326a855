import ReducedX86.Proofs.Machine.History
import ReducedX86.Proofs.Processor.Blindness

/-!
Machines whose differences nobody notices.

Two machines resemble each other if they differ only in their observers and in what a blind program
does not see. They then answer every call alike and go on resembling each other, as long as the
steps that the call takes are blind. The proof follows the calls: each of them does the same
to both machines, and a step is the only part that needs blindness.
-/
namespace ReducedX86.Machine

-- Two machines are compared field by field; what is in the registers and in the ports need not be
-- looked into.
attribute [local irreducible] RegisterFile.set Bytes.store

/-- The processor after a reset, with the variables of the table in its memory. -/
def restarted {δ : Type} [PortDevice δ] (p : Processor δ) (table : VariableTable) : Processor δ :=
  let cleared := p.resetExecution.resetMemory
  { ({ cleared with memory := table.fill cleared.memory } : Processor δ).resetRegisters with
    device := PortDevice.reset p.device p.now }

/-- What a reset leaves of a machine: its settings, its variables, its program. -/
theorem reset_eq {δ : Type} [PortDevice δ] (m : Machine δ) :
    ∃ observers, m.reset.2 =
      { m with
        processor := restarted m.tock.processor m.table
        observers
        running := false
        stepPending := false
        continues := false
        resumeAt := none
        clock := m.clock.tail } := by
  rw [reset]
  simp only
  split <;> exact ⟨_, rfl⟩

/-- A reset reads the wall clock, and what was masked stays masked. -/
theorem restarted_mask (p : Processor Board) (table : VariableTable) (buffer : Word)
    (draws : Feed Word) (time : Nat) :
    restarted (p.disguised (Processor.mask buffer draws time)) table =
      (restarted p table).disguised (Processor.mask buffer draws p.now.wall) := by
  have device := Board.powerOn_withClock p.now.wall p.device.defaultInterval p.now.wall
  change _ = ({ restarted p table with
    buffer, draws
    device := (Board.powerOn p.device.defaultInterval p.now.wall).withClock p.now.wall } :
      Processor Board)
  rw [device]
  rfl

/-- The machines differ only in their observers, in when they last read their clocks, and in what a
blind program does not see. -/
def Resembles (m m' : Machine Board) : Prop :=
  ∃ observers buffer draws time now, m' =
    { m with
      processor := { m.processor with
        buffer, draws, now
        device := m.processor.device.withClock time }
      observers }

/-- The steps are blind. -/
def BlindSteps (steps : List (Stepping Board)) : Prop := ∀ s ∈ steps, s.2.Blind s.1

theorem blindSteps_append {steps more : List (Stepping Board)} :
    BlindSteps (steps ++ more) ↔ BlindSteps steps ∧ BlindSteps more :=
  List.forall_mem_append

/-- What decides how a machine goes on is the same on both machines. -/
structure SameConditions (m m' : Machine Board) : Prop where
  canContinue : m'.processor.canContinue = m.processor.canContinue
  halted : m'.isHalted = m.isHalted
  pending : m'.hasPendingTransfer = m.hasPendingTransfer
  active : m'.isRunningOrWaiting = m.isRunningOrWaiting
  compiled : m'.compiled = m.compiled
  running : m'.running = m.running
  stepPending : m'.stepPending = m.stepPending
  continues : m'.continues = m.continues
  resumeAt : m'.resumeAt = m.resumeAt
  settings : m'.settings = m.settings
  clock : m'.clock = m.clock
  patience : m'.patience = m.patience

variable {m m' : Machine Board}

namespace Resembles

theorem notify (like : m.Resembles m') (n n' : Notification) :
    (m.notify n).Resembles (m'.notify n') := by
  obtain ⟨observers, buffer, draws, time, now, rfl⟩ := like
  exact ⟨_, buffer, draws, time, now, rfl⟩

theorem reportFaults (like : m.Resembles m') : m.reportFaults.Resembles m'.reportFaults := by
  obtain ⟨told, eq⟩ := reportFaults_eq m
  obtain ⟨told', eq'⟩ := reportFaults_eq m'
  rw [eq, eq']
  obtain ⟨observers, buffer, draws, time, now, rfl⟩ := like
  exact ⟨told', buffer, draws, time, now, rfl⟩

theorem clearDebugRequest (like : m.Resembles m') :
    m.clearDebugRequest.Resembles m'.clearDebugRequest := by
  obtain ⟨observers, buffer, draws, time, now, rfl⟩ := like
  simp only [Machine.clearDebugRequest]
  split <;> exact ⟨observers, buffer, draws, time, now, rfl⟩

theorem finishRun (like : m.Resembles m') : m.finishRun.Resembles m'.finishRun := by
  obtain ⟨observers, buffer, draws, time, now, eq⟩ := like.clearDebugRequest
  rw [Machine.finishRun, Machine.finishRun]
  simp only [eq]
  exact notify ⟨observers, buffer, draws, time, now, rfl⟩ _ _

/-- Clocks that are read together show the same. -/
theorem tock (like : m.Resembles m') : m.tock.Resembles m'.tock := by
  obtain ⟨observers, buffer, draws, time, now, rfl⟩ := like
  exact ⟨observers, buffer, draws, time, m.clock.head, rfl⟩

theorem reset (like : m.Resembles m') :
    m.reset.1 = m'.reset.1 ∧ m.reset.2.Resembles m'.reset.2 := by
  obtain ⟨told, eq⟩ := reset_eq m
  obtain ⟨told', eq'⟩ := reset_eq m'
  obtain ⟨observers, buffer, draws, time, now, rfl⟩ := like
  refine ⟨rfl, ?_⟩
  rw [eq, eq']
  have masked := restarted_mask m.tock.processor m.table buffer draws time
  exact ⟨told', buffer, draws, m.clock.head.wall, m.clock.head,
    congrArg (fun processor : Processor Board => ({ m with
      processor
      observers := told'
      running := false
      stepPending := false
      continues := false
      resumeAt := none
      clock := m.clock.tail } : Machine Board)) masked⟩

theorem takeResetRequest (like : m.Resembles m') :
    m.takeResetRequest.1 = m'.takeResetRequest.1 ∧
      m.takeResetRequest.2.Resembles m'.takeResetRequest.2 := by
  have asked : ({ m with
        processor := { m.processor with
          device := (PortDevice.takeResetRequest m.processor.device).2 } } : Machine Board).Resembles
      { m' with
        processor := { m'.processor with
          device := (PortDevice.takeResetRequest m'.processor.device).2 } } := by
    obtain ⟨observers, buffer, draws, time, now, rfl⟩ := like
    exact ⟨observers, buffer, draws, time, now, rfl⟩
  have same : (PortDevice.takeResetRequest m'.processor.device).1 =
      (PortDevice.takeResetRequest m.processor.device).1 := by
    obtain ⟨observers, buffer, draws, time, now, rfl⟩ := like
    rfl
  rw [Machine.takeResetRequest, Machine.takeResetRequest]
  simp only [same]
  split
  · exact ⟨rfl, asked.reset.2⟩
  · exact ⟨rfl, asked⟩

theorem conditions (like : m.Resembles m') : SameConditions m m' := by
  obtain ⟨observers, buffer, draws, time, now, rfl⟩ := like
  exact ⟨rfl, rfl, rfl, rfl, rfl, rfl, rfl, rfl, rfl, rfl, rfl, rfl⟩

/-- What is marked the same way on both machines. -/
theorem marked (like : m.Resembles m') (running stepPending continues : Bool)
    (resumeAt : Option Time) :
    ({ m with running, stepPending, continues, resumeAt } : Machine Board).Resembles
      { m' with running, stepPending, continues, resumeAt } := by
  obtain ⟨observers, buffer, draws, time, now, rfl⟩ := like
  exact ⟨observers, buffer, draws, time, now, rfl⟩

theorem forgotten (like : m.Resembles m') :
    ({ m with processor := { m.processor with fault := none } } : Machine Board).Resembles
      { m' with processor := { m'.processor with fault := none } } := by
  obtain ⟨observers, buffer, draws, time, now, rfl⟩ := like
  exact ⟨observers, buffer, draws, time, now, rfl⟩

/-- A step that follows a look at the clock. -/
theorem step (like : m.Resembles m') {stepping : Bool} (blind : m.tock.processor.Blind stepping) :
    ({ m.tock with processor := (m.tock.processor.step stepping).2 } : Machine Board).Resembles
      { m'.tock with processor := (m'.tock.processor.step stepping).2 } := by
  obtain ⟨observers, buffer, draws, time, now, rfl⟩ := like
  obtain ⟨-, buffer', draws', time', stepped⟩ :=
    Processor.step_resembles (q := m.tock.processor.disguised (Processor.mask buffer draws time))
      ⟨buffer, draws, time, rfl⟩ blind
  exact ⟨observers, buffer', draws', time', _,
    congrArg (fun processor : Processor Board => ({ m.tock with processor, observers } :
      Machine Board)) stepped⟩

theorem pause (like : m.Resembles m') : m.pause.Resembles m'.pause := by
  obtain ⟨observers, buffer, draws, time, now, rfl⟩ := like
  exact ⟨observers, buffer, draws, time, m.clock.head, rfl⟩

/-- Both machines take a look, or neither, and both see the same. -/
theorem look (like : m.Resembles m') (started : Time) (count : Word) :
    Option.Rel (fun next next' => next.1 = next'.1 ∧ next.2.Resembles next'.2)
      (m.look started count) (m'.look started count) := by
  have looked := like.tock
  rw [Machine.look, Machine.look, like.conditions.settings]
  split
  · exact .some ⟨rfl, like⟩
  · have same : m'.tock.processor.now = m.tock.processor.now :=
      congrArg Feed.head like.conditions.clock
    simp only [same, looked.conditions.settings]
    split
    · exact .none
    · exact .some ⟨rfl, looked⟩

end Resembles

/-- What turns of the loop come to is the same. -/
inductive TurnsAlike : Turn Board → Turn Board → Prop
  | finished {m m' : Machine Board} (like : m.Resembles m') : TurnsAlike (.finished m) (.finished m')
  | next {m m' : Machine Board} (count : Word) (like : m.Resembles m') :
      TurnsAlike (.next count m) (.next count m')

namespace Resembles

theorem takeStep (like : m.Resembles m') (count : Word) (blind : m.tock.processor.Blind false) :
    TurnsAlike (m.tock.takeStep count) (m'.tock.takeStep count) := by
  obtain ⟨same, taken⟩ := (like.step blind).reportFaults.takeResetRequest
  rw [Machine.takeStep, Machine.takeStep]
  generalize Machine.takeResetRequest (δ := Board) _ = first at same taken ⊢
  generalize Machine.takeResetRequest (δ := Board) _ = second at same taken ⊢
  obtain ⟨asked, n⟩ := first
  obtain ⟨_, n'⟩ := second
  cases same
  cases asked with
  | true => exact .finished taken
  | false => exact .next count taken

theorem turn (like : m.Resembles m') (started : Time) (count : Word)
    (blind : BlindSteps (m.turnSteps started count)) :
    TurnsAlike (m.turn started count) (m'.turn started count) := by
  rw [Machine.turn, Machine.turn, like.conditions.canContinue]
  rw [turnSteps] at blind
  split
  · exact .finished like.finishRun
  · rename_i going
    rw [if_neg going] at blind
    have looked := like.look started count
    generalize m.look started count = found at looked blind ⊢
    generalize m'.look started count = found' at looked ⊢
    cases looked with
    | none => exact .finished like.tock.pause
    | @some next next' alike =>
        obtain ⟨count', n⟩ := next
        obtain ⟨_, n'⟩ := next'
        obtain ⟨rfl, alike⟩ := alike
        exact alike.takeStep count' (blind _ List.mem_cons_self)

theorem runTurns (started : Time) (turns : Nat) (count : Word) (like : m.Resembles m')
    (blind : BlindSteps (loopSteps started turns count m)) :
    Option.Rel Resembles (runTurns started turns count m)
      (Machine.runTurns started turns count m') := by
  induction turns generalizing count m m' with
  | zero => exact .none
  | succ turns ih =>
      rw [loopSteps] at blind
      obtain ⟨here, later⟩ := blindSteps_append.mp blind
      have alike := like.turn started count here
      rw [Machine.runTurns, Machine.runTurns]
      generalize m.turn started count = turn at alike later ⊢
      generalize m'.turn started count = turn' at alike ⊢
      cases alike with
      | finished like => exact .some like
      | next count' like => exact ih count' like later

theorem launched (like : m.Resembles m') : m.launched.Resembles m'.launched := by
  have begun := like.forgotten.marked true false false none
  rw [Machine.launched, Machine.launched, like.conditions.running]
  simp only
  split
  · exact begun.tock
  · exact (begun.notify _ _).tock

theorem runBatch (like : m.Resembles m') (blind : BlindSteps m.batch) :
    Option.Rel Resembles m.runBatch m'.runBatch := by
  have launched := like.launched
  have started : m'.launched.processor.now = m.launched.processor.now := by
    rw [Machine.launched, Machine.launched, like.conditions.running]
    simp only
    split <;> exact congrArg Feed.head like.conditions.clock
  rw [Machine.runBatch, Machine.runBatch, started, like.conditions.patience]
  exact runTurns _ _ _ launched blind

theorem finishStep (like : m.Resembles m') : m.finishStep.Resembles m'.finishStep := by
  have cleared := like.clearDebugRequest
  have same := cleared.conditions
  simp only [Machine.finishStep, same.halted, same.pending]
  generalize (Machine.isHalted (δ := Board) _ || _) = pending
  generalize Machine.clearDebugRequest (δ := Board) _ = c at cleared ⊢
  generalize Machine.clearDebugRequest (δ := Board) _ = c' at cleared ⊢
  obtain ⟨observers, buffer, draws, time, now, rfl⟩ := cleared
  exact ⟨_, buffer, draws, time, now, rfl⟩

theorem stepOnce (like : m.Resembles m') (blind : m.poised.processor.Blind true) :
    m.stepOnce.Resembles m'.stepOnce := by
  let begun (m : Machine Board) : Machine Board :=
    { m with
      running := true
      stepPending := false
      continues := false
      processor := { m.processor with fault := none } }
  have alike : (begun m).Resembles (begun m') := by
    obtain ⟨observers, buffer, draws, time, now, rfl⟩ := like
    exact ⟨observers, buffer, draws, time, now, rfl⟩
  obtain ⟨told, eq⟩ := reportFaults_advanced m.poised true
  obtain ⟨told', eq'⟩ := reportFaults_advanced m'.poised true
  have reported : (m.poised.advanced true m.poised.running told).Resembles
      (m'.poised.advanced true m'.poised.running told') := by
    rw [← eq, ← eq']
    exact (alike.step blind).reportFaults
  have stopped : (m.poised.advanced true false told).Resembles
      (m'.poised.advanced true false told') := by
    obtain ⟨observers, buffer, draws, time, now, same⟩ := reported
    exact ⟨observers, buffer, draws, time, now, congrArg ({ · with running := false }) same⟩
  obtain ⟨same, taken⟩ := stopped.takeResetRequest
  rw [stepOnce_eq eq, stepOnce_eq eq']
  generalize Machine.takeResetRequest (δ := Board) _ = first at same taken ⊢
  generalize Machine.takeResetRequest (δ := Board) _ = second at same taken ⊢
  obtain ⟨asked, n⟩ := first
  obtain ⟨_, n'⟩ := second
  cases same
  cases asked with
  | true => exact taken
  | false => exact taken.finishStep

theorem wake (like : m.Resembles m') (blind : BlindSteps m.wakeSteps) :
    Option.Rel Resembles m.wake m'.wake := by
  have same := like.conditions
  obtain ⟨observers, buffer, draws, time, now, rfl⟩ := like
  rw [wakeSteps] at blind
  simp only [Machine.wake, same.pending]
  split
  · exact .some ⟨observers, buffer, draws, time, now, rfl⟩
  · rename_i free
    rw [if_neg free] at blind
    split
    · exact .some ⟨_, buffer, draws, time, now, rfl⟩
    · rename_i unpended
      rw [if_neg unpended] at blind
      split
      · rename_i continues
        rw [if_pos continues] at blind
        split
        · exact .some ⟨observers, buffer, draws, time, now, rfl⟩
        · rename_i stands
          rw [if_neg stands] at blind
          exact Resembles.runBatch ⟨observers, buffer, draws, time, now, rfl⟩ blind
      · exact .some ⟨observers, buffer, draws, time, now, rfl⟩

end Resembles

/-! Calls that are answered alike -/

/-- The calls end alike and leave machines that resemble each other, or neither returns. -/
def Alike {α : Type} (x y : MachineCall Board α) (m m' : Machine Board) : Prop :=
  Option.Rel (fun ended ended' => ended.1 = ended'.1 ∧ ended.2.Resembles ended'.2) (x.on m) (y.on m')

section Alike

variable {α β : Type}

theorem alike_pure (like : m.Resembles m') (a : α) : Alike (pure a) (pure a) m m' :=
  .some ⟨rfl, like⟩

theorem alike_throw (like : m.Resembles m') (e : MachineError) :
    Alike (throw e : MachineCall Board α) (throw e) m m' :=
  .some ⟨rfl, like⟩

theorem alike_modify {f g : Machine Board → Machine Board} (like : (f m).Resembles (g m')) :
    Alike (modify f) (modify g) m m' :=
  .some ⟨rfl, like⟩

theorem alike_change {f g : Machine Board → Option (Machine Board)}
    (like : Option.Rel Resembles (f m) (g m')) : Alike (.change f) (.change g) m m' := by
  change Option.Rel _ ((f m).map _) ((g m').map _)
  generalize f m = result at like ⊢
  generalize g m' = result' at like ⊢
  cases like with
  | none => exact .none
  | some like => exact .some ⟨rfl, like⟩

theorem Alike.bind {x y : MachineCall Board α} {k l : α → MachineCall Board β}
    (first : Alike x y m m')
    (rest : ∀ a n n', x.on m = some (.ok a, n) → n.Resembles n' → Alike (k a) (l a) n n') :
    Alike (x >>= k) (y >>= l) m m' := by
  rw [Alike] at first
  rw [Alike, on_bind, on_bind]
  cases ran : x.on m with
  | none =>
      rw [ran] at first
      generalize y.on m' = ended' at first ⊢
      cases first
      exact .none
  | some ended =>
      rw [ran] at first
      generalize y.on m' = ended' at first ⊢
      obtain ⟨answer, n⟩ := ended
      cases first with
      | @some _ ended' same =>
          obtain ⟨answer', n'⟩ := ended'
          obtain ⟨rfl, like⟩ := same
          cases answer with
          | ok a => exact rest a n n' ran like
          | error e => exact .some ⟨rfl, like⟩

theorem alike_get_bind {k l : Machine Board → MachineCall Board α} (h : Alike (k m) (l m') m m') :
    Alike (get >>= k) (get >>= l) m m' := h

theorem alike_modify_bind {f g : Machine Board → Machine Board} {k l : PUnit → MachineCall Board α}
    (h : Alike (k ()) (l ()) (f m) (g m')) : Alike (modify f >>= k) (modify g >>= l) m m' := h

end Alike

/-- Both machines answer the call alike and go on resembling each other, if its steps are blind. -/
def AnswersAlike {α : Type} (x : MachineCall Board α) (steps : Machine Board → List (Stepping Board)) :
    Prop :=
  ∀ m m', m.Resembles m' → BlindSteps (steps m) → Alike x x m m'

theorem of_requireIdle {n : Machine Board} (ran : requireIdle.on m = some (.ok (), n)) :
    n = m ∧ m.isRunningOrWaiting = false := by
  have passes : Ends requireIdle (fun _ n => n = m ∧ m.isRunningOrWaiting = false)
      (fun _ _ => True) True m := by
    rw [ends_requireIdle]
    exact ⟨fun _ => trivial, fun quiet => ⟨rfl, quiet⟩⟩
  exact passes.of_ok ran

theorem of_requireCompiled {n : Machine Board} (ran : requireCompiled.on m = some (.ok (), n)) :
    n = m ∧ m.compiled := by
  have passes : Ends requireCompiled (fun _ n => n = m ∧ m.compiled) (fun _ _ => True) True m := by
    rw [ends_requireCompiled]
    exact ⟨fun _ => trivial, fun compiled => ⟨rfl, compiled⟩⟩
  exact passes.of_ok ran

theorem alike_requireIdle (like : m.Resembles m') : Alike requireIdle requireIdle m m' := by
  apply alike_get_bind
  rw [like.conditions.active]
  split
  · exact alike_throw like _
  · exact alike_pure like _

theorem alike_requireCompiled (like : m.Resembles m') :
    Alike requireCompiled requireCompiled m m' := by
  apply alike_get_bind
  rw [like.conditions.compiled]
  split
  · exact alike_throw like _
  · exact alike_pure like _

theorem addVariable_alike (d : Declaration) : AnswersAlike (addVariable d) fun _ => [] := by
  intro m m' like _
  apply (alike_requireIdle like).bind
  intro _ n n' _ like
  obtain ⟨observers, buffer, draws, time, now, rfl⟩ := like
  apply alike_modify_bind
  apply alike_get_bind
  simp only
  split
  · exact alike_modify ⟨_, buffer, draws, time, now, rfl⟩
  · exact alike_modify_bind (alike_throw ⟨_, buffer, draws, time, now, rfl⟩ _)

/-- A call that starts something need only be looked at where it is not refused. -/
theorem start_alike {start : MachineCall Board Unit} {steps : Machine Board → List (Stepping Board)}
    (starts : ∀ m m', m.Resembles m' → BlindSteps (steps m) → Alike start start m m') :
    AnswersAlike (do requireCompiled; requireIdle; start) fun m =>
      if m.compiled && !m.isRunningOrWaiting then steps m else [] := by
  intro m m' like blind
  apply (alike_requireCompiled like).bind
  intro _ n n' ran like'
  obtain ⟨rfl, compiled⟩ := of_requireCompiled ran
  apply (alike_requireIdle like').bind
  intro _ k k' ran like''
  obtain ⟨rfl, quiet⟩ := of_requireIdle ran
  simp only [compiled, quiet, Bool.not_false, Bool.and_self, ↓reduceIte] at blind
  exact starts _ _ like'' blind

theorem run_alike : AnswersAlike run (·.stepsOf .run) :=
  start_alike fun _ _ like blind => alike_change (like.runBatch blind)

theorem callStep_alike : AnswersAlike step (·.stepsOf .step) :=
  start_alike fun _ _ like blind => alike_modify (like.stepOnce (blind _ List.mem_cons_self))

theorem addVariables_alike (ds : List Declaration) : AnswersAlike (addVariables ds) fun _ => [] := by
  induction ds with
  | nil => exact fun m m' like _ => alike_pure like _
  | cons d rest ih =>
      intro m m' like none
      exact (addVariable_alike d m m' like none).bind fun _ n n' _ like => ih n n' like none

theorem removeVariable_alike (name : String) :
    AnswersAlike (removeVariable name) fun _ => [] := by
  intro m m' like _
  apply (alike_requireIdle like).bind
  intro _ n n' _ like
  obtain ⟨observers, buffer, draws, time, now, rfl⟩ := like
  apply alike_modify_bind
  apply alike_get_bind
  simp only
  split
  · exact alike_modify_bind (alike_pure ⟨_, buffer, draws, time, now, rfl⟩ _)
  · exact alike_pure ⟨_, buffer, draws, time, now, rfl⟩ _

theorem stop_alike : AnswersAlike stop fun _ => [] := by
  intro m m' like _
  apply (alike_requireCompiled like).bind
  intro _ n n' _ like
  apply alike_get_bind
  have same := like.conditions
  simp only [same.halted, same.pending, same.running]
  split
  · exact alike_throw like _
  · split
    · exact alike_throw like _
    · split
      · obtain ⟨observers, buffer, draws, time, now, rfl⟩ := like
        exact alike_modify ⟨_, buffer, draws, time, now, rfl⟩
      · exact alike_pure like _

theorem assemble_alike (source : String) : AnswersAlike (assemble source) fun _ => [] := by
  intro m m' like _
  apply (alike_requireIdle like).bind
  intro _ n n' _ like
  apply alike_modify_bind
  have unloaded : ({ n with compiled := false, processor := n.processor.load #[] } :
      Machine Board).Resembles { n' with compiled := false, processor := n'.processor.load #[] } := by
    obtain ⟨observers, buffer, draws, time, now, rfl⟩ := like
    exact ⟨observers, buffer, draws, time, now, rfl⟩
  generalize ({ n with compiled := false, processor := n.processor.load #[] } : Machine Board) = u
    at unloaded ⊢
  generalize ({ n' with compiled := false, processor := n'.processor.load #[] } : Machine Board) = u'
    at unloaded ⊢
  apply alike_get_bind
  have same : Program.assembleIn source u'.table u'.processor.memory.size =
      Program.assembleIn source u.table u.processor.memory.size := by
    obtain ⟨observers, buffer, draws, time, now, rfl⟩ := unloaded
    rfl
  simp only [same]
  generalize Program.assembleIn source _ _ = assembled
  obtain ⟨result, table⟩ := assembled
  apply alike_modify_bind
  cases result with
  | error e =>
      obtain ⟨observers, buffer, draws, time, now, rfl⟩ := unloaded
      exact alike_modify_bind (alike_throw ⟨_, buffer, draws, time, now, rfl⟩ _)
  | ok program =>
      have loaded : ({ u with
          table
          processor := u.processor.load program.instructions
          artifacts := program.artifacts
          compiled := true } : Machine Board).Resembles
          { u' with
            table
            processor := u'.processor.load program.instructions
            artifacts := program.artifacts
            compiled := true } := by
        obtain ⟨observers, buffer, draws, time, now, rfl⟩ := unloaded
        exact ⟨observers, buffer, draws, time, now, rfl⟩
      exact alike_modify (loaded.reset.2.notify _ _)

theorem requestInterrupt_alike (number : Word) :
    AnswersAlike (requestInterrupt number) (requestSteps number) := by
  intro m m' like blind
  apply alike_get_bind
  simp only [requestSteps, Processor.queueInterrupt] at blind
  obtain ⟨observers, buffer, draws, time, now, rfl⟩ := like
  simp only [Processor.queueInterrupt]
  by_cases legal : 32 ≤ number ∧ number ≤ 255
  · rw [if_pos legal, if_pos legal]
    rw [if_pos legal] at blind
    exact alike_change (Resembles.wake ⟨observers, buffer, draws, time, now, rfl⟩ blind)
  · rw [if_neg legal, if_neg legal]
    exact alike_throw ⟨observers, buffer, draws, time, now, rfl⟩ _

/-- With nothing pending, there is nothing to complete. -/
theorem resumeTransfer_alike (like : m.Resembles m') (free : m.processor.pendingTransfer = none) :
    Alike resumeTransfer resumeTransfer m m' := by
  have none : m.hasPendingTransfer = false := by rw [hasPendingTransfer, free, Option.isSome_none]
  apply alike_get_bind
  simp only [like.conditions.pending, none]
  exact alike_throw like _

/-! Any call -/

/-- What a call answers; what it tells observers is not meant. -/
inductive Reply
  | done
  | told (answer : Bool)
  | refused (error : MachineError)
  deriving DecidableEq, Repr

/-- What a call answers, if it returns. -/
def answer {δ α : Type} (x : MachineCall δ α) (say : α → Reply) (m : Machine δ) : Option Reply :=
  (x.on m).map fun
    | (.ok a, _) => say a
    | (.error e, _) => .refused e

def reply {δ : Type} [PortDevice δ] (m : Machine δ) : Call → Option Reply
  | .addVariable d => answer (addVariable d) (fun _ => .done) m
  | .addVariables ds => answer (addVariables ds) (fun _ => .done) m
  | .removeVariable name => answer (removeVariable name) .told m
  | .assemble source => answer (assemble source) (fun _ => .done) m
  | .run => answer run (fun _ => .done) m
  | .step => answer step (fun _ => .done) m
  | .stop => answer stop (fun _ => .done) m
  | .reset => some (.told m.reset.1)
  | .requestInterrupt number => answer (requestInterrupt number) (fun _ => .done) m
  | .resumeTransfer => answer resumeTransfer (fun _ => .done) m
  | .tick now => (m.tick now).map fun _ => .done
  | .setBuffer _ | .attach | .detach _ => some .done

theorem after_resembles {α : Type} {x : MachineCall Board α} (alike : Alike x x m m') :
    Option.Rel Resembles (after x m) (after x m') := by
  rw [Alike] at alike
  rw [after, after]
  generalize x.on m = ended at alike ⊢
  generalize x.on m' = ended' at alike ⊢
  cases alike with
  | none => exact .none
  | some same => exact .some same.2

theorem answer_eq {α : Type} {x : MachineCall Board α} (alike : Alike x x m m') (say : α → Reply) :
    answer x say m = answer x say m' := by
  rw [Alike] at alike
  rw [answer, answer]
  generalize x.on m = ended at alike ⊢
  generalize x.on m' = ended' at alike ⊢
  cases alike with
  | none => rfl
  | @some ended ended' same =>
      obtain ⟨answered, n⟩ := ended
      obtain ⟨_, n'⟩ := ended'
      obtain ⟨rfl, -⟩ := same
      cases answered <;> rfl

/-- What comes after machines that resemble each other, or after neither. -/
theorem rel_bind {result result' : Option (Machine Board)}
    {next next' : Machine Board → Option (Machine Board)} (first : Option.Rel Resembles result result')
    (rest : ∀ n n', result = some n → n.Resembles n' → Option.Rel Resembles (next n) (next' n')) :
    Option.Rel Resembles (result.bind next) (result'.bind next') := by
  cases first with
  | none => exact .none
  | some like => exact rest _ _ rfl like

namespace Resembles

theorem requestAll (numbers : List UInt8) (like : m.Resembles m')
    (blind : BlindSteps (requestAllSteps numbers m)) :
    Option.Rel Resembles (requestAll m numbers) (Machine.requestAll m' numbers) := by
  induction numbers generalizing m m' with
  | nil => exact .some like
  | cons number rest ih =>
      obtain ⟨here, later⟩ := blindSteps_append.mp blind
      rw [requestAll_cons, requestAll_cons]
      refine rel_bind (after_resembles (requestInterrupt_alike _ m m' like here)) ?_
      intro n n' ran like
      rw [ran] at later
      exact ih like later

theorem poll (like : m.Resembles m') (now : Time) :
    (PortDevice.poll m'.processor.device now).1 = (PortDevice.poll m.processor.device now).1 ∧
      (m.polled now).Resembles (m'.polled now) := by
  obtain ⟨observers, buffer, draws, time, read, rfl⟩ := like
  have polled : PortDevice.poll (m.processor.device.withClock time) now =
      ((m.processor.device.poll now).1, (m.processor.device.poll now).2.withClock time) :=
    m.processor.device.poll_withClock time now
  have due : (PortDevice.poll (m.processor.device.withClock time) now).1 =
      (PortDevice.poll m.processor.device now).1 := by
    rw [polled]
    rfl
  refine ⟨due, observers, buffer, draws, time, read, ?_⟩
  rw [Machine.polled]
  simp only [polled]
  rfl

theorem goOn (like : m.Resembles m') (now : Time) (blind : BlindSteps (m.goOnSteps now)) :
    Option.Rel Resembles (m.goOn now) (m'.goOn now) := by
  have halted := like.conditions.halted
  have pending := like.conditions.pending
  obtain ⟨observers, buffer, draws, time, read, rfl⟩ := like
  simp only [isHalted, hasPendingTransfer] at halted pending
  simp only [goOnSteps, isHalted, hasPendingTransfer] at blind
  simp only [Machine.goOn, isHalted, hasPendingTransfer]
  split
  · rename_i elapsed
    rw [if_pos elapsed] at blind
    by_cases goes : (m.running && !m.processor.halted && !m.processor.pendingTransfer.isSome) = true
    · simp only [goes, ↓reduceIte] at blind ⊢
      exact Resembles.runBatch ⟨observers, buffer, draws, time, read, rfl⟩ blind
    · simp only [goes, Bool.false_eq_true, ↓reduceIte]
      exact .some ⟨observers, buffer, draws, time, read, rfl⟩
  · exact .some ⟨observers, buffer, draws, time, read, rfl⟩

theorem tick (like : m.Resembles m') (now : Time) (blind : BlindSteps (m.tickSteps now)) :
    Option.Rel Resembles (m.tick now) (m'.tick now) := by
  obtain ⟨due, polled⟩ := like.poll now
  rw [tickSteps] at blind
  obtain ⟨requests, later⟩ := blindSteps_append.mp blind
  rw [tick_eq, tick_eq, due]
  refine rel_bind (polled.requestAll _ requests) fun n n' ran like => ?_
  rw [ran] at later
  exact like.takeResetRequest.2.goOn now later

end Resembles

/-- A call whose steps are blind does the same to both machines. -/
theorem Resembles.perform (like : m.Resembles m') (free : m.processor.pendingTransfer = none)
    (c : Call) (blind : BlindSteps (m.stepsOf c)) :
    m.reply c = m'.reply c ∧ Option.Rel Resembles (m.perform c) (m'.perform c) := by
  have called {α : Type} {x : MachineCall Board α} (alike : Alike x x m m') (say : α → Reply) :
      answer x say m = answer x say m' ∧ Option.Rel Resembles (after x m) (after x m') :=
    ⟨answer_eq alike say, after_resembles alike⟩
  cases c with
  | addVariable d => exact called (addVariable_alike d m m' like blind) _
  | addVariables ds => exact called (addVariables_alike ds m m' like blind) _
  | removeVariable name => exact called (removeVariable_alike name m m' like blind) _
  | assemble source => exact called (assemble_alike source m m' like blind) _
  | run => exact called (run_alike m m' like blind) _
  | step => exact called (callStep_alike m m' like blind) _
  | stop => exact called (stop_alike m m' like blind) _
  | reset => exact ⟨congrArg (some ∘ Reply.told) like.reset.1, .some like.reset.2⟩
  | requestInterrupt number => exact called (requestInterrupt_alike number m m' like blind) _
  | resumeTransfer => exact called (resumeTransfer_alike like free) _
  | tick now =>
      have alike := like.tick now blind
      refine ⟨?_, alike⟩
      rw [reply, reply]
      generalize m.tick now = result at alike ⊢
      generalize m'.tick now = result' at alike ⊢
      cases alike <;> rfl
  | setBuffer value =>
      obtain ⟨observers, buffer, draws, time, read, rfl⟩ := like
      exact ⟨rfl, .some ⟨observers, value, draws, time, read, rfl⟩⟩
  | attach | detach number =>
      obtain ⟨observers, buffer, draws, time, read, rfl⟩ := like
      exact ⟨rfl, .some ⟨_, buffer, draws, time, read, rfl⟩⟩

end ReducedX86.Machine
