import ReducedX86.Machine
import ReducedX86.Proofs.Outcome

/-!
How the calls of a host end.

`Ends` says how a call ends if it returns, and what holds if it does not. There is one equation for
each call. It tells when the call is refused, and what it makes of the machine otherwise; a call that
does several things in turn is told as one change of the machine. What the calls preserve is shown
from these equations, so that a call is taken apart only here.
-/
namespace ReducedX86.Machine

variable {δ α β : Type}

/-- `done` holds of what there is, or `hung` if there is nothing. -/
def Leads (result : Option α) (done : α → Prop) (hung : Prop) : Prop :=
  match result with
  | some a => done a
  | none => hung

/-- The call ends as `done` admits or fails as `failed` admits, or `hung` holds if it does not
return. -/
def Ends (x : MachineCall δ α) (done : α → Machine δ → Prop)
    (failed : MachineError → Machine δ → Prop) (hung : Prop) (m : Machine δ) : Prop :=
  Leads (x.on m) (fun
    | (.ok a, m') => done a m'
    | (.error e, m') => failed e m') hung

section Results

variable {result : Option α} {done done' : α → Prop} {hung hung' : Prop}

theorem Leads.mono (h : Leads result done hung) (of_done : ∀ a, done a → done' a)
    (of_hung : hung → hung') : Leads result done' hung' := by
  cases result with
  | none => exact of_hung h
  | some a => exact of_done a h

theorem Leads.of_some (h : Leads result done hung) {a : α} (returned : result = some a) : done a := by
  rwa [returned] at h

theorem Leads.and (first : Leads result done hung) (second : Leads result done' hung) :
    Leads result (fun a => done a ∧ done' a) hung := by
  cases result with
  | none => exact first
  | some a => exact ⟨first, second⟩

/-- Nothing more need be known of what has any result admitted. -/
theorem leads_of_forall (result : Option α) (all : ∀ a, done a) : Leads result done True := by
  cases result with
  | none => trivial
  | some a => exact all a

/-- What is sure to come about, comes about. -/
theorem Leads.exists (h : Leads result done False) : ∃ a, result = some a ∧ done a := by
  cases result with
  | none => exact h.elim
  | some a => exact ⟨a, rfl, h⟩

theorem leads_bind (result : Option α) (k : α → Option β) {done : β → Prop} :
    Leads (result.bind k) done hung ↔ Leads result (fun a => Leads (k a) done hung) hung := by
  cases result <;> rfl

theorem Leads.bind {k : α → Option β} {done' : β → Prop} (first : Leads result done hung)
    (rest : ∀ a, done a → Leads (k a) done' hung') (of_hung : hung → hung') :
    Leads (result.bind k) done' hung' :=
  (leads_bind result k).mpr (first.mono rest of_hung)

theorem leads_map (result : Option α) (f : α → β) {done : β → Prop} :
    Leads (result.map f) done hung ↔ Leads result (fun a => done (f a)) hung := by
  cases result <;> rfl

theorem leads_self (result : Option α) : Leads result (fun a => result = some a) (result = none) := by
  cases result <;> rfl

end Results

section Ends

variable {x : MachineCall δ α} {done done' : α → Machine δ → Prop}
  {failed failed' : MachineError → Machine δ → Prop} {hung hung' : Prop} {m m' : Machine δ}

theorem Ends.mono (h : Ends x done failed hung m) (of_done : ∀ a m', done a m' → done' a m')
    (of_failed : ∀ e m', failed e m' → failed' e m') (of_hung : hung → hung') :
    Ends x done' failed' hung' m :=
  Leads.mono h (fun
    | (.ok a, m') => of_done a m'
    | (.error e, m') => of_failed e m') of_hung

theorem Ends.and (first : Ends x done failed hung m) (second : Ends x done' failed' hung m) :
    Ends x (fun a m' => done a m' ∧ done' a m') (fun e m' => failed e m' ∧ failed' e m') hung m := by
  apply Leads.mono (Leads.and first second)
  · rintro ⟨a | e, m'⟩ both <;> exact both
  · exact id

theorem Ends.of_ok (h : Ends x done failed hung m) {a : α} (ran : x.on m = some (.ok a, m')) :
    done a m' := Leads.of_some h ran

theorem Ends.of_error (h : Ends x done failed hung m) {e : MachineError}
    (ran : x.on m = some (.error e, m')) : failed e m' := Leads.of_some h ran

@[simp] theorem ends_pure (a : α) :
    Ends (pure a : MachineCall δ α) done failed hung m ↔ done a m := Iff.rfl

theorem on_bind (x : MachineCall δ α) (k : α → MachineCall δ β) (m : Machine δ) :
    (x >>= k).on m = (x.on m).bind fun
      | (.ok a, m') => (k a).on m'
      | (.error e, m') => some (.error e, m') := by
  change (x.on m).bind (fun answered => ExceptT.bindCont k answered.1 answered.2) = _
  congr 1
  funext ⟨answer, m'⟩
  cases answer <;> rfl

@[simp] theorem ends_bind {done : β → Machine δ → Prop} (x : MachineCall δ α)
    (k : α → MachineCall δ β) :
    Ends (x >>= k) done failed hung m ↔
      Ends x (fun a m' => Ends (k a) done failed hung m') failed hung m := by
  rw [Ends, on_bind, leads_bind]
  cases ran : x.on m with
  | none => simp only [Ends, ran, Leads]
  | some answered =>
      obtain ⟨answer, m'⟩ := answered
      cases answer <;> simp only [Ends, ran, Leads]

@[simp] theorem ends_ite {c : Prop} [Decidable c] (x y : MachineCall δ α) :
    Ends (if c then x else y) done failed hung m ↔
      (c → Ends x done failed hung m) ∧ (¬ c → Ends y done failed hung m) := by
  split <;> rename_i h <;> simp [h]

@[simp] theorem ends_get {done : Machine δ → Machine δ → Prop} :
    Ends get done failed hung m ↔ done m m := Iff.rfl

@[simp] theorem ends_modify {done : PUnit → Machine δ → Prop} (f : Machine δ → Machine δ) :
    Ends (modify f) done failed hung m ↔ done () (f m) := Iff.rfl

@[simp] theorem ends_throw (e : MachineError) :
    Ends (throw e : MachineCall δ α) done failed hung m ↔ failed e m := Iff.rfl

@[simp] theorem ends_change {done : Unit → Machine δ → Prop}
    (f : Machine δ → Option (Machine δ)) :
    Ends (.change f) done failed hung m ↔ Leads (f m) (done ()) hung := by
  have runs : (MachineCall.change f).on m = (f m).map fun m' => (.ok (), m') := rfl
  rw [Ends, runs, leads_map]

end Ends

section Calls

variable {m : Machine δ} {done : Unit → Machine δ → Prop} {failed : MachineError → Machine δ → Prop}
  {hung : Prop}

/-! Guards -/

@[simp] theorem ends_requireIdle :
    Ends requireIdle done failed hung m ↔
      (m.isRunningOrWaiting → failed .busy m) ∧ (m.isRunningOrWaiting = false → done () m) := by
  simp [requireIdle]

@[simp] theorem ends_requireCompiled :
    Ends requireCompiled done failed hung m ↔
      (m.compiled = false → failed .notCompiled m) ∧ (m.compiled → done () m) := by
  simp [requireCompiled]

/-! Variables -/

theorem ends_addVariable (d : Declaration) :
    Ends (addVariable d) done failed hung m ↔
      (m.isRunningOrWaiting → failed .busy m) ∧
      (m.isRunningOrWaiting = false →
        match m.table.add d m.processor.memory.size with
        | .ok (v, table) =>
            done () (({ m with compiled := false, table } : Machine δ).notify (.variableAdded v))
        | .error e =>
            failed (.declaration e)
              (({ m with compiled := false } : Machine δ).notify (.variableRefused e))) := by
  simp only [addVariable, ends_bind, ends_requireIdle, ends_modify, ends_get]
  cases m.table.add d m.processor.memory.size <;> rfl

/-- What holds of a machine and outlasts each declaration holds when all have been made. -/
theorem ends_addVariables {P : Machine δ → Prop}
    (each : ∀ d m, P m → Ends (addVariable d) (fun _ m' => P m') failed hung m)
    (ds : List Declaration) (holds : P m) :
    Ends (addVariables ds) (fun _ m' => P m') failed hung m := by
  induction ds generalizing m with
  | nil => exact holds
  | cons d rest ih =>
      rw [addVariables, ends_bind]
      apply (each d m holds).mono
      · exact fun _ m' holds' => ih holds'
      · exact fun _ _ ended => ended
      · exact id

theorem ends_removeVariable {done : Bool → Machine δ → Prop} (name : String) :
    Ends (removeVariable name) done failed hung m ↔
      (m.isRunningOrWaiting → failed .busy m) ∧
      (m.isRunningOrWaiting = false →
        match m.table.remove name with
        | (some v, table) =>
            done true
              (({ m with compiled := false, table } : Machine δ).notify (.variableRemoved v))
        | (none, _) => done false { m with compiled := false }) := by
  simp only [removeVariable, ends_bind, ends_requireIdle, ends_modify, ends_get]
  cases m.table.remove name with
  | mk removed table => cases removed <;> rfl

/-! Runs -/

/-- The machine between two batches of a run that a host has ended. -/
def stopped (m : Machine δ) : Machine δ :=
  let m := { m with running := false, stepPending := false, continues := false, resumeAt := none }
  m.notify (.stoppedRunning { m.status with stopCalled := true })

theorem ends_stop :
    Ends stop done failed hung m ↔
      (m.compiled = false → failed .notCompiled m) ∧ (m.compiled →
        (m.isHalted → failed .halted m) ∧ (¬ m.isHalted →
          (m.hasPendingTransfer → failed .busy m) ∧ (¬ m.hasPendingTransfer →
            (m.running → done () m.stopped) ∧ (¬ m.running → done () m)))) := by
  simp only [stop, ends_bind, ends_requireCompiled, ends_get, ends_ite, ends_throw,
    ends_pure, ends_modify, stopped]

/-- A call that starts something does so on a machine that has a program and is idle. -/
theorem ends_start (start : MachineCall δ Unit) :
    Ends (do requireCompiled; requireIdle; start) done failed hung m ↔
      (m.compiled = false → failed .notCompiled m) ∧ (m.compiled →
        (m.isRunningOrWaiting → failed .busy m) ∧
        (m.isRunningOrWaiting = false → Ends start done failed hung m)) := by
  simp only [ends_bind, ends_requireCompiled, ends_requireIdle]

variable [PortDevice δ]

theorem ends_run :
    Ends run done failed hung m ↔
      (m.compiled = false → failed .notCompiled m) ∧ (m.compiled →
        (m.isRunningOrWaiting → failed .busy m) ∧
        (m.isRunningOrWaiting = false → Leads m.runBatch (done ()) hung)) := by
  rw [run, ends_start, ends_change]

theorem ends_step :
    Ends step done failed hung m ↔
      (m.compiled = false → failed .notCompiled m) ∧ (m.compiled →
        (m.isRunningOrWaiting → failed .busy m) ∧
        (m.isRunningOrWaiting = false → done () m.stepOnce)) := by
  rw [step, ends_start, ends_modify]

/-! Programs -/

omit [PortDevice δ] in
/-- The machine without a program, after one was refused. -/
def unloaded (m : Machine δ) (table : VariableTable) : Machine δ :=
  { m with compiled := false, table, processor := m.processor.load #[] }

/-- The machine with a program that it has not been reset for yet. -/
def loaded (m : Machine δ) (program : Program) (table : VariableTable) : Machine δ :=
  { m with
    compiled := true
    table
    artifacts := program.artifacts
    processor := (m.processor.load #[]).load program.instructions }

theorem ends_assemble (source : String) :
    Ends (assemble source) done failed hung m ↔
      (m.isRunningOrWaiting → failed .busy m) ∧
      (m.isRunningOrWaiting = false →
        match Program.assembleIn source m.table m.processor.memory.size with
        | (.ok program, table) =>
            done () ((m.loaded program table).reset.2.notify (.assemblyFinished false))
        | (.error e, table) =>
            failed (.assembly e)
              (((m.unloaded table).notify (.assemblyFailed e)).notify (.assemblyFinished true))) := by
  simp only [assemble, ends_bind, ends_requireIdle, ends_modify, ends_get,
    Processor.memory_load, loaded, unloaded]
  cases Program.assembleIn source m.table m.processor.memory.size with
  | mk result table => cases result <;> rfl

/-! Interrupts and transfers -/

/-- The machine with an interrupt requested, and its halt ended. -/
def requested (m : Machine δ) (number : Word) : Machine δ :=
  { m with
    processor := { m.processor with
      interruptQueue := Processor.enqueue (UInt8.ofNat number.toNat) m.processor.interruptQueue
      halted := false } }

theorem ends_requestInterrupt (number : Word) :
    Ends (requestInterrupt number) done failed hung m ↔
      (¬ (32 ≤ number ∧ number ≤ 255) → failed (.interruptOutOfRange number) m) ∧
      (32 ≤ number ∧ number ≤ 255 → Leads (m.requested number).wake (done ()) hung) := by
  simp only [requestInterrupt, ends_bind, ends_get, Processor.queueInterrupt]
  by_cases external : 32 ≤ number ∧ number ≤ 255
  · simp [external, requested]
  · simp [external]

theorem ends_resumeTransfer :
    Ends resumeTransfer done failed hung m ↔
      (m.hasPendingTransfer = false → failed .noPendingTransfer m) ∧
      (m.hasPendingTransfer →
        Leads { m with processor := m.processor.resumeTransfer.2 }.reportFaults.afterResume
          (fun m' =>
            match m.processor.resumeTransfer.1 with
            | .error f => failed (.runtime f) m'
            | .ok _ => done () m')
          hung) := by
  simp only [resumeTransfer, ends_bind, ends_get, ends_ite, ends_throw, ends_change]
  cases m.processor.resumeTransfer with
  | mk result processor => cases result <;> simp

end Calls

end ReducedX86.Machine
