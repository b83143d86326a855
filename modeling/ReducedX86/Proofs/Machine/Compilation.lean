import ReducedX86.Device.Script
import ReducedX86.Proofs.Machine.Chronicle
import ReducedX86.Proofs.Machine.Reset
import ReducedX86.Proofs.Machine.Resting
import ReducedX86.Proofs.Variable.Allocation

/-!
What a compiled machine runs.

The program, its artifacts and the variables are changed by the calls that prepare a machine, and by no
other. Those calls leave the machine uncompiled unless they assemble a source against the variables
that the table then has. So a machine that is compiled holds what its last source assembles to.
-/
namespace ReducedX86

namespace Program

variable {source : String} {table allocated : VariableTable} {memorySize : Nat} {program : Program}

theorem assembleIn_eq
    (assembled : assembleIn source table memorySize = (.ok program, allocated)) :
    table.allocate memorySize = .ok allocated ∧
      assemble source allocated (UInt32.ofNat (Memory.base + memorySize)) = .ok program := by
  rw [assembleIn] at assembled
  cases fits : table.allocate memorySize with
  | error total =>
      rw [fits] at assembled
      cases assembled
  | ok placed =>
      rw [fits] at assembled
      obtain ⟨ended, rfl⟩ := Prod.mk.inj assembled
      exact ⟨rfl, ended⟩

/-- A source may be assembled again against the variables that its assembly has allocated. -/
theorem assembleIn_again
    (assembled : assembleIn source table memorySize = (.ok program, allocated)) :
    assembleIn source allocated memorySize = (.ok program, allocated) := by
  obtain ⟨fits, ended⟩ := assembleIn_eq assembled
  rw [assembleIn, VariableTable.allocate_of_allocate fits]
  exact congrArg (·, allocated) ended

/-- The layout of a program has all the variables in the order of their addresses. -/
theorem layout_of_assemble {limit : Word} (assembled : assemble source table limit = .ok program) :
    program.artifacts.layout.Perm table.entries ∧
      program.artifacts.layout.Pairwise (·.address ≤ ·.address) := by
  have sorted : program.artifacts.layout =
      table.entries.mergeSort fun a b => a.address ≤ b.address := by
    rw [assemble, Assembly.ofTokens] at assembled
    split at assembled
    · cases assembled
    · split at assembled
      · cases assembled
      · cases assembled
        rfl
  rw [sorted]
  exact ⟨List.mergeSort_perm _ _, VariableTable.pairwise_byAddress table.entries⟩

end Program

variable {δ : Type} [PortDevice δ]

namespace Machine

/-- What only the calls that prepare a machine change. -/
def preparation (m : Machine δ) : VariableTable × Artifacts × Bool × Array Instruction × Nat :=
  (m.table, m.artifacts, m.compiled, m.processor.program, m.processor.memory.size)

theorem program_wiped {δ : Type} (p : Processor δ) (table : VariableTable) :
    (wiped p table).program = p.program := by
  simp only [wiped, Processor.resetExecution, Processor.resetMemory, Processor.resetRegisters]

theorem size_wiped {δ : Type} (p : Processor δ) (table : VariableTable) :
    (wiped p table).memory.size = p.memory.size := by
  simp only [wiped, Processor.resetExecution, Processor.resetMemory, Processor.resetRegisters]
  exact (table.size_fill _).trans (Memory.size_clear _)

theorem program_restarted (p : Processor δ) (table : VariableTable) :
    (restarted p table).program = p.program := by
  simp only [restarted, Processor.resetExecution, Processor.resetMemory, Processor.resetRegisters]

variable {watcher : Nat} {m m' : Machine δ} {deeds : List (Deed δ)}

theorem Does.preparation (did : Does watcher false m deeds m') :
    m'.preparation = m.preparation := by
  have of_processor {p : Processor δ} (program : p.program = m.processor.program)
      (memorySize : p.memory.size = m.processor.memory.size) :
      ({ m with processor := p } : Machine δ).preparation = m.preparation := by
    rw [Machine.preparation, program, memorySize]
    rfl
  cases did with
  | told | taken | marked | edited | hosted | exchanged | attached | detached => rfl
  | stepped stepping _ _ =>
      exact of_processor (Processor.program_step ..) (Processor.memorySize_step ..)
  | completed _ _ =>
      obtain ⟨fault, faultLog, control⟩ := m.processor.control_resumeTransfer
      exact of_processor (congrArg Control.program control)
        (congrArg Equipment.memorySize m.processor.equipment_resumeTransfer)
  | wiped => exact of_processor (program_wiped ..) (size_wiped ..)
  | prepared _ _ _ allowed | loaded _ allowed => exact absurd allowed Bool.false_ne_true

theorem preparation_reset (m : Machine δ) : m.reset.2.preparation = m.preparation := by
  obtain ⟨observers, eq⟩ := reset_eq m
  rw [eq, preparation, size_restarted, program_restarted]
  rfl

/-- The other calls leave the preparation as it is. -/
theorem preparation_perform (reachable : Reachable m) {c : Call} (other : ¬ c.Prepares)
    (returned : m.perform c = some m') : m'.preparation = m.preparation := by
  obtain ⟨watcher, deeds, chronicle⟩ := exists_chronicle false reachable c
    (fun prepares => absurd prepares other) returned
  exact chronicle.preserves (P := fun m' => m'.preparation = m.preparation) rfl
    fun did same => did.preparation.trans same

/-- If the machine is compiled, then it holds what `source` assembles to against its variables. -/
def Current (source : Option String) (m : Machine δ) : Prop :=
  m.compiled → ∃ text, source = some text ∧
    Program.assembleIn text m.table m.processor.memory.size =
      (.ok ⟨m.processor.program, m.artifacts⟩, m.table)

variable {source : Option String}

omit [PortDevice δ] in
theorem Current.of_preparation (current : m.Current source)
    (same : m'.preparation = m.preparation) : m'.Current source := by
  simp only [preparation, Prod.mk.injEq] at same
  obtain ⟨table, artifacts, compiled, program, memorySize⟩ := same
  rw [Current, table, artifacts, compiled, program, memorySize]
  exact current

omit [PortDevice δ] in
theorem current_of_uncompiled (uncompiled : m.compiled = false) : m.Current source :=
  fun compiled => absurd (uncompiled.symm.trans compiled) Bool.false_ne_true

/-- However the call ends, the machine holds what it claims to. -/
def KeepsCurrent {α : Type} (x : MachineCall δ α) : Prop :=
  ∀ source m, m.Current source →
    Ends x (fun _ m' => m'.Current source) (fun _ m' => m'.Current source) True m

omit [PortDevice δ] in
theorem keepsCurrent_addVariable (d : Declaration) : KeepsCurrent (δ := δ) (addVariable d) := by
  intro source m current
  rw [ends_addVariable]
  refine ⟨fun _ => current, fun _ => ?_⟩
  split <;> exact current_of_uncompiled rfl

omit [PortDevice δ] in
theorem keepsCurrent_addVariables (ds : List Declaration) :
    KeepsCurrent (δ := δ) (addVariables ds) :=
  fun source _ current =>
    ends_addVariables (fun d m' => keepsCurrent_addVariable d source m') ds current

omit [PortDevice δ] in
theorem keepsCurrent_removeVariable (name : String) :
    KeepsCurrent (δ := δ) (removeVariable name) := by
  intro source m current
  rw [ends_removeVariable]
  refine ⟨fun _ => current, fun _ => ?_⟩
  split <;> exact current_of_uncompiled rfl

/-- A source that is assembled is the one that the machine then holds. -/
theorem current_assemble (text : String) (current : m.Current source) :
    Ends (assemble text) (fun _ m' => m'.Current (some text)) (fun _ m' => m'.Current source) True
      m := by
  rw [ends_assemble]
  refine ⟨fun _ => current, fun _ => ?_⟩
  split
  · rename_i program table assembled
    have memory : (m.loaded program table).processor.memory = m.processor.memory := by
      rw [loaded, Processor.memory_load, Processor.memory_load]
    have holds : (m.loaded program table).Current (some text) := by
      intro _
      refine ⟨text, rfl, ?_⟩
      rw [memory]
      exact Program.assembleIn_again assembled
    have same : ((m.loaded program table).reset.2.notify (.assemblyFinished false)).preparation =
        (m.loaded program table).preparation := preparation_reset (m.loaded program table)
    exact holds.of_preparation same
  · exact current_of_uncompiled rfl

/-! A machine that is not compiled -/

omit [PortDevice δ] in
/-- It neither runs nor waits. -/
theorem Consistent.idle_of_uncompiled (h : m.Consistent) (uncompiled : m.compiled = false) :
    m.Idle := by
  apply h.idle
  rw [← Bool.not_eq_true]
  intro active
  simp only [isRunningOrWaiting, Bool.or_eq_true] at active
  exact absurd (h.compiled (or_assoc.mp active)) (Bool.eq_false_iff.mp uncompiled)

/-- Calls return, and take no step. -/
theorem perform_of_uncompiled (h : m.Consistent) (uncompiled : m.compiled = false) (c : Call) :
    m.stepsOf c = [] ∧ ∃ m', m.perform c = some m' ∧ (c.Starts → m' = m) := by
  have other (otherwise : ¬ c.Starts) :
      m.stepsOf c = [] ∧ ∃ m', m.perform c = some m' ∧ (c.Starts → m' = m) := by
    obtain ⟨returns, none⟩ := (h.idle_of_uncompiled uncompiled).resting.perform otherwise
    obtain ⟨m', returned, -⟩ := returns.exists
    exact ⟨none, m', returned, fun starts => absurd starts otherwise⟩
  cases c with
  | run | step =>
      refine ⟨?_, m, ?_, fun _ => rfl⟩
      · rw [stepsOf, uncompiled]
        rfl
      · first | rw [perform, after_run, uncompiled] | rw [perform, after_step, uncompiled]
        rfl
  | _ => exact other id

theorem stepsOf_of_prepares {c : Call} (prepares : c.Prepares) (m : Machine δ) :
    m.stepsOf c = [] := by
  cases c with
  | addVariable _ | addVariables _ | removeVariable _ | assemble _ => rfl
  | run | step | stop | reset | requestInterrupt _ | resumeTransfer | tick _ | setBuffer _ | attach
    | detach _ => exact prepares.elim

/-! Histories -/

/-- The source that is assembled last once an event has happened, if `before` was it till then. -/
def assembledBy (m : Machine δ) (before : Option String) (e : Event) : Option String :=
  match e.call with
  | .assemble source =>
      if (m.attended e.clock e.patience).reply e.call = some .done then some source else before
  | _ => before

/-- The last source that is assembled in a history, or else `before`. -/
def lastAssembled (m : Machine δ) (before : Option String) : List Event → Option String
  | [] => before
  | e :: rest =>
      let source := m.assembledBy before e
      (m.meet e).elim source (·.lastAssembled source rest)

theorem Current.meet (current : m.Current source) (reachable : Reachable m) {e : Event}
    (met : m.meet e = some m') : m'.Current (m.assembledBy source e) := by
  obtain ⟨clock, patience, c⟩ := e
  have here : (m.attended clock patience).Current source := current
  have kept (other : ¬ c.Prepares) : m'.Current source :=
    here.of_preparation (preparation_perform (.attended clock patience reachable) other met)
  cases c with
  | addVariable d => exact (leads_after (keepsCurrent_addVariable d source _ here)).of_some met
  | addVariables ds => exact (leads_after (keepsCurrent_addVariables ds source _ here)).of_some met
  | removeVariable name =>
      exact (leads_after (keepsCurrent_removeVariable name source _ here)).of_some met
  | assemble text =>
      have assembles := current_assemble text here
      obtain ⟨⟨answered, last⟩, ran, rfl⟩ := Option.map_eq_some_iff.mp met
      rw [assembledBy, reply, answer, ran]
      cases answered with
      | ok a => exact assembles.of_ok ran
      | error e => exact assembles.of_error ran
  | run | step | stop | reset | requestInterrupt _ | resumeTransfer | tick _ | setBuffer _ | attach
    | detach _ => exact kept id

theorem Current.history (current : m.Current source) (reachable : Reachable m)
    {events : List Event} (led : m.history events = some m') :
    m'.Current (m.lastAssembled source events) := by
  induction events generalizing m source with
  | nil =>
      cases led
      exact current
  | cons e rest ih =>
      obtain ⟨next, met, led⟩ := Option.bind_eq_some_iff.mp led
      rw [lastAssembled, met]
      exact ih (current.meet reachable met) (reachable.meet met) led

/-- Whatever a host has done, a machine that is compiled holds what the last source that was assembled
gives against the variables as they are now. These stand where their table places them, and the layout
of the program lists them by address. What a call comes to is traced by its steps: if the machine is not
compiled, the call returns without any, and starts nothing; and only the calls that prepare the machine,
which take no step, change what it holds. -/
theorem compiled_is_current {settings : Settings} {device : δ} {draws : Feed Word}
    {fresh m : Machine δ} (made : Machine.new settings device draws = .ok fresh)
    {events : List Event} (led : fresh.history events = some m) :
    (m.compiled → ∃ source, fresh.lastAssembled none events = some source ∧
      Program.assembleIn source m.table m.processor.memory.size =
        (.ok ⟨m.processor.program, m.artifacts⟩, m.table) ∧
      m.table.allocate m.processor.memory.size = .ok m.table ∧
      (∀ v ∈ m.table.entries,
        m.table.addresses.lookup (VariableTable.key v.name) = some v.address) ∧
      m.artifacts.layout.Perm m.table.entries ∧
      m.artifacts.layout.Pairwise (·.address ≤ ·.address)) ∧
    ∀ e : Event,
      let steps := (m.attended e.clock e.patience).stepsOf e.call
      Traces m steps (m.meet e) ∧
      (steps ≠ [] → m.compiled ∧ ¬ e.call.Prepares) ∧
      (m.compiled = false → ∃ m', m.meet e = some m' ∧ Path m [] m' ∧
        (e.call.Starts → m' = m.attended e.clock e.patience)) ∧
      (¬ e.call.Prepares → ∀ m', m.meet e = some m' → m'.preparation = m.preparation) := by
  have reachable : Reachable m := (Reachable.new made).history led
  have blank : fresh.Current none := by
    obtain rfl := eq_of_new made
    exact current_of_uncompiled rfl
  refine ⟨fun compiled => ?_, fun e => ?_⟩
  · obtain ⟨source, last, assembled⟩ := blank.history (.new made) led compiled
    obtain ⟨fits, ended⟩ := Program.assembleIn_eq assembled
    exact ⟨source, last, assembled, fits,
      fun v member => VariableTable.lookup_address_of_allocate fits member,
      Program.layout_of_assemble ended⟩
  · have here : Reachable (m.attended e.clock e.patience) := .attended _ _ reachable
    have idle (uncompiled : m.compiled = false) :=
      perform_of_uncompiled (consistent_of_reachable here) uncompiled e.call
    refine ⟨traces_meet e,
      fun steps => ⟨?_, fun prepares => steps (stepsOf_of_prepares prepares _)⟩,
      fun uncompiled => ?_, fun other m' met =>
        preparation_perform (m := m.attended e.clock e.patience) here other met⟩
    · rw [← Bool.not_eq_false]
      exact fun uncompiled => steps (idle uncompiled).1
    · obtain ⟨none, m', met, refused⟩ := idle uncompiled
      have path := (traces_meet e).of_some met
      rw [none] at path
      exact ⟨m', met, path, refused⟩

/-- A source is refused, and the one before it is not run in its place. -/
theorem compiled_is_current_after_refusal :
    let fresh : Machine Script :=
      { processor := .new 16 {} default, settings := { memorySize := 16 } }
    let events : List Event :=
      [⟨default, 0, .addVariable { name := "x", size := 4 }⟩, ⟨default, 0, .assemble "inc x"⟩,
        ⟨default, 0, .assemble "inc"⟩]
    let again : List Event := events ++ [⟨default, 0, .assemble "dec x"⟩]
    ∃ m m', fresh.history events = some m ∧ fresh.history again = some m' ∧
      m.compiled = false ∧ m.meet ⟨default, 4, .run⟩ = some (m.attended default 4) ∧
      m'.compiled ∧ ((m'.attended default 4).stepsOf .run).length = 2 ∧
      (m'.meet ⟨default, 4, .run⟩).map preparation = some m'.preparation ∧
      ∃ source, fresh.lastAssembled none again = some source ∧
        Program.assembleIn source m'.table m'.processor.memory.size =
          (.ok ⟨m'.processor.program, m'.artifacts⟩, m'.table) := by
  intro fresh events again
  have made : Machine.new { memorySize := 16 } {} default = .ok fresh := rfl
  have refused : (fresh.history events).any (!·.compiled) := by decide +kernel
  have accepted : (fresh.history again).any fun m =>
      m.compiled && ((m.attended default 4).stepsOf .run).length == 2 &&
        (m.meet ⟨default, 4, .run⟩).isSome := by decide +kernel
  obtain ⟨m, led, uncompiled⟩ := (Option.any_eq_true _ _).mp refused
  obtain ⟨m', led', accepted⟩ := (Option.any_eq_true _ _).mp accepted
  simp only [Bool.and_eq_true, beq_iff_eq] at accepted
  obtain ⟨⟨compiled, executes⟩, returns⟩ := accepted
  have uncompiled : m.compiled = false := (Bool.not_eq_true' _).mp uncompiled
  obtain ⟨-, before⟩ := compiled_is_current made led
  obtain ⟨current, after⟩ := compiled_is_current made led'
  obtain ⟨last, met, -, started⟩ := (before ⟨default, 4, .run⟩).2.2.1 uncompiled
  obtain ⟨ran, met'⟩ := Option.isSome_iff_exists.mp returns
  have kept := (after ⟨default, 4, .run⟩).2.2.2 id ran met'
  obtain ⟨source, given, assembled, -⟩ := current compiled
  refine ⟨m, m', led, led', uncompiled, ?_, compiled, executes, ?_, source, given, assembled⟩
  · rw [met, started trivial]
  · rw [met', Option.map_some, kept]

end Machine

end ReducedX86
