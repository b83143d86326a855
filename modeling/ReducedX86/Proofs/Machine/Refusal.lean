import ReducedX86.Device.Script
import ReducedX86.Proofs.Machine.Resemblance

/-!
Calls that a machine refuses.

Every call looks at the machine before it does anything. If the machine is not in the condition that
the call asks for, then the call is refused, and nothing has changed. Errors that come up later, in
declaring, assembling or completing a transfer, are no refusals.
-/
namespace ReducedX86

/-- The call has not been begun. -/
def MachineError.IsRefusal : MachineError → Prop
  | notCompiled | busy | halted | noPendingTransfer | interruptOutOfRange _ => True
  | runtime _ | assembly _ | declaration _ => False

namespace Machine

variable {δ : Type} {α : Type}

/-- The machine neither runs nor is halted nor waits for a transfer. -/
structure Free (m : Machine δ) : Prop where
  running : m.running = false
  halted : m.isHalted = false
  pending : m.hasPendingTransfer = false

theorem free_iff {m : Machine δ} : m.Free ↔ m.isRunningOrWaiting = false := by
  simp only [isRunningOrWaiting, Bool.or_eq_false_iff]
  exact ⟨fun h => ⟨⟨h.running, h.halted⟩, h.pending⟩, fun h => ⟨h.1.1, h.1.2, h.2⟩⟩

theorem not_free_iff {m : Machine δ} : ¬ m.Free ↔ m.isRunningOrWaiting = true := by
  rw [free_iff, Bool.not_eq_false]

/-- What a call asks of the machine. -/
def Accepts (m : Machine δ) : Call → Prop
  | .run | .step => m.compiled ∧ m.Free
  | .stop => m.compiled ∧ m.isHalted = false ∧ m.hasPendingTransfer = false
  | .addVariable _ | .removeVariable _ | .assemble _ => m.Free
  | .addVariables ds => ds = [] ∨ m.Free
  | .requestInterrupt number => 32 ≤ number ∧ number ≤ 255
  | .resumeTransfer => m.hasPendingTransfer
  | .reset | .tick _ | .setBuffer _ | .attach | .detach _ => True

/-- However the call ends, if it does, it is not refused. -/
def Begun (x : MachineCall δ α) (m : Machine δ) : Prop :=
  Ends x (fun _ _ => True) (fun e _ => ¬ e.IsRefusal) True m

/-- The call is refused, and then without any effect, unless the condition holds. -/
structure Guarded (accepts : Machine δ → Prop) (x : MachineCall δ α) : Prop where
  begun {m : Machine δ} : accepts m → Begun x m
  refused {m : Machine δ} : ¬ accepts m →
    Ends x (fun _ _ => False) (fun e m' => e.IsRefusal ∧ m' = m) False m

theorem guarded_requireIdle {k : MachineCall δ α} (begun : ∀ m, Begun k m) :
    Guarded Free (do requireIdle; k) where
  begun {m} free := by
    simp only [Begun, ends_bind, ends_requireIdle]
    exact ⟨fun active => absurd free (not_free_iff.mpr active), fun _ => begun m⟩
  refused {m} busy := by
    simp only [ends_bind, ends_requireIdle]
    exact ⟨fun _ => ⟨trivial, trivial⟩, fun quiet => absurd (free_iff.mpr quiet) busy⟩

theorem guarded_requireCompiled {accepts : Machine δ → Prop} {k : MachineCall δ α}
    (guarded : Guarded accepts k) :
    Guarded (fun m => m.compiled ∧ accepts m) (do requireCompiled; k) where
  begun {m} accepted := by
    simp only [Begun, ends_bind, ends_requireCompiled]
    exact ⟨fun uncompiled => by simp [uncompiled] at accepted, fun _ => guarded.begun accepted.2⟩
  refused {m} kept := by
    simp only [ends_bind, ends_requireCompiled]
    exact ⟨fun _ => ⟨trivial, trivial⟩,
      fun compiled => guarded.refused fun accepted => kept ⟨compiled, accepted⟩⟩

theorem guarded_addVariable (d : Declaration) : Guarded Free (addVariable (δ := δ) d) := by
  apply guarded_requireIdle
  intro m
  simp only [Begun, ends_bind, ends_modify, ends_get]
  split
  · trivial
  · exact id

/-- Declaring a variable does not set the machine going. -/
theorem addVariable_free (d : Declaration) {m : Machine δ} (free : m.Free) :
    Ends (addVariable d) (fun _ m' => m'.Free) (fun e _ => ¬ e.IsRefusal) True m := by
  rw [ends_addVariable]
  refine ⟨fun active => absurd free (not_free_iff.mpr active), fun _ => ?_⟩
  split
  · exact ⟨free.running, free.halted, free.pending⟩
  · exact id

theorem begun_addVariables (ds : List Declaration) {m : Machine δ} (free : m.Free) :
    Begun (addVariables ds) m :=
  (ends_addVariables (fun d _ => addVariable_free d) ds free).mono (fun _ _ _ => trivial)
    (fun _ _ other => other) id

theorem guarded_addVariables (ds : List Declaration) :
    Guarded (fun m : Machine δ => ds = [] ∨ m.Free) (addVariables ds) where
  begun accepted := by
    rcases accepted with rfl | free
    · trivial
    · exact begun_addVariables ds free
  refused {m} kept := by
    obtain ⟨nonempty, busy⟩ := not_or.mp kept
    obtain ⟨d, rest, rfl⟩ := List.exists_cons_of_ne_nil nonempty
    rw [addVariables, ends_bind]
    exact ((guarded_addVariable d).refused busy).mono (fun _ _ impossible => impossible.elim)
      (fun _ _ refused => refused) id

theorem guarded_removeVariable (name : String) :
    Guarded Free (removeVariable (δ := δ) name) := by
  apply guarded_requireIdle
  intro m
  simp only [Begun, ends_bind, ends_modify, ends_get]
  split <;> trivial

theorem guarded_stop :
    Guarded (fun m : Machine δ =>
      m.compiled ∧ m.isHalted = false ∧ m.hasPendingTransfer = false) stop := by
  refine guarded_requireCompiled ⟨fun {m} accepted => ?_, fun {m} kept => ?_⟩
  all_goals
    simp only [Begun, ends_bind, ends_get, ends_ite, ends_throw, ends_pure,
      ends_modify]
  · simp [accepted]
  · cases halted : m.isHalted <;> cases pending : m.hasPendingTransfer <;>
      simp_all [MachineError.IsRefusal]

variable [PortDevice δ]

theorem guarded_assemble (source : String) : Guarded Free (assemble (δ := δ) source) := by
  apply guarded_requireIdle
  intro m
  simp only [Begun, ends_bind, ends_modify, ends_get]
  split
  · trivial
  · exact id

theorem guarded_run : Guarded (fun m : Machine δ => m.compiled ∧ m.Free) run :=
  guarded_requireCompiled (guarded_requireIdle fun _ => by
    rw [Begun, ends_change]
    exact leads_of_forall _ fun _ => trivial)

theorem guarded_step : Guarded (fun m : Machine δ => m.compiled ∧ m.Free) step :=
  guarded_requireCompiled (guarded_requireIdle fun _ => trivial)

theorem guarded_requestInterrupt (number : Word) :
    Guarded (fun _ : Machine δ => 32 ≤ number ∧ number ≤ 255) (requestInterrupt number) where
  begun legal := by
    rw [Begun, ends_requestInterrupt]
    exact ⟨fun illegal => absurd legal illegal, fun _ => leads_of_forall _ fun _ => trivial⟩
  refused illegal := by
    rw [ends_requestInterrupt]
    exact ⟨fun _ => ⟨trivial, rfl⟩, fun legal => absurd legal illegal⟩

theorem guarded_resumeTransfer :
    Guarded (fun m : Machine δ => m.hasPendingTransfer) resumeTransfer where
  begun {m} waits := by
    rw [Begun, ends_resumeTransfer]
    refine ⟨fun free => absurd waits (Bool.eq_false_iff.mp free), fun _ => ?_⟩
    refine leads_of_forall _ fun _ => ?_
    cases m.processor.resumeTransfer.1 with
    | error f => exact id
    | ok done => trivial
  refused {m} free := by
    rw [ends_resumeTransfer]
    exact ⟨fun _ => ⟨trivial, rfl⟩, fun waits => absurd waits free⟩

/-! Any call -/

omit [PortDevice δ] in
/-- A call is refused or begun as its guard says, whatever it answers otherwise. -/
theorem Guarded.reply {accepts : Machine δ → Prop} {x : MachineCall δ α} (guarded : Guarded accepts x)
    (say : α → Reply) (plain : ∀ a e, say a ≠ .refused e) (m : Machine δ) :
    (accepts m → ∀ e, answer x say m = some (.refused e) → ¬ e.IsRefusal) ∧
      (¬ accepts m →
        (∃ e, answer x say m = some (.refused e) ∧ e.IsRefusal) ∧ after x m = some m) := by
  refine ⟨fun accepted e refused => ?_, fun kept => ?_⟩
  · obtain ⟨⟨answered, m'⟩, ran, said⟩ := Option.map_eq_some_iff.mp refused
    cases answered with
    | ok a => exact absurd said (plain a e)
    | error e' =>
        cases said
        exact (guarded.begun accepted).of_error ran
  · obtain ⟨⟨answered, m'⟩, ran, refused⟩ := Leads.exists (guarded.refused kept)
    cases answered with
    | ok a => exact refused.elim
    | error e =>
        obtain ⟨refusal, rfl⟩ := refused
        rw [answer, after, ran]
        exact ⟨⟨e, rfl, refusal⟩, rfl⟩

omit [PortDevice δ] in
theorem done_ne_refused {α : Type} (_ : α) (e : MachineError) : Reply.done ≠ .refused e :=
  Reply.noConfusion

omit [PortDevice δ] in
theorem told_ne_refused (found : Bool) (e : MachineError) : Reply.told found ≠ .refused e :=
  Reply.noConfusion

theorem reply_of_accepts (m : Machine δ) (c : Call) :
    (m.Accepts c → ∀ e, m.reply c = some (.refused e) → ¬ e.IsRefusal) ∧
      (¬ m.Accepts c →
        (∃ e, m.reply c = some (.refused e) ∧ e.IsRefusal) ∧ m.perform c = some m) := by
  cases c with
  | addVariable d => exact (guarded_addVariable d).reply _ done_ne_refused m
  | addVariables ds => exact (guarded_addVariables ds).reply _ done_ne_refused m
  | removeVariable name => exact (guarded_removeVariable name).reply _ told_ne_refused m
  | assemble source => exact (guarded_assemble source).reply _ done_ne_refused m
  | run => exact guarded_run.reply _ done_ne_refused m
  | step => exact guarded_step.reply _ done_ne_refused m
  | stop => exact guarded_stop.reply _ done_ne_refused m
  | requestInterrupt number => exact (guarded_requestInterrupt number).reply _ done_ne_refused m
  | resumeTransfer => exact guarded_resumeTransfer.reply _ done_ne_refused m
  | tick now =>
      refine ⟨fun _ e refused => ?_, fun kept => absurd trivial kept⟩
      obtain ⟨m', -, said⟩ := Option.map_eq_some_iff.mp refused
      exact Reply.noConfusion said
  | reset | setBuffer value | attach | detach number =>
      exact ⟨fun _ _ refused => Reply.noConfusion (Option.some.inj refused),
        fun kept => absurd trivial kept⟩

/-- Running and stepping end well or are refused, if they return. -/
theorem reply_start {m : Machine δ} {c : Call} (starts : c = .run ∨ c = .step) {r : Reply}
    (replied : m.reply c = some r) : r = .done ∨ ∃ e, r = .refused e ∧ e.IsRefusal := by
  have ends {x : MachineCall δ Unit}
      (h : Ends x (fun _ _ => True) (fun e _ => e.IsRefusal) True m)
      (replied : answer x (fun _ => .done) m = some r) :
      r = .done ∨ ∃ e, r = .refused e ∧ e.IsRefusal := by
    obtain ⟨⟨answered, m'⟩, ran, rfl⟩ := Option.map_eq_some_iff.mp replied
    cases answered with
    | ok a => exact .inl rfl
    | error e => exact .inr ⟨e, rfl, h.of_error ran⟩
  have starting {start : MachineCall δ Unit} (h : ∀ m, Ends start (fun _ _ => True)
      (fun e _ => e.IsRefusal) True m) :
      Ends (do requireCompiled; requireIdle; start) (fun _ _ => True) (fun e _ => e.IsRefusal) True
        m := by
    rw [ends_start]
    exact ⟨fun _ => trivial, fun _ => ⟨fun _ => trivial, fun _ => h m⟩⟩
  rcases starts with rfl | rfl
  · refine ends (starting fun m => ?_) replied
    rw [ends_change]
    exact leads_of_forall _ fun _ => trivial
  · refine ends (starting fun _ => ?_) replied
    rw [ends_modify]
    trivial

/-- A single step always returns. -/
theorem reply_step_ne_none (m : Machine δ) : m.reply .step ≠ none := by
  have returns : Ends step (fun _ _ => True) (fun _ _ => True) False m := by
    rw [ends_step]
    exact ⟨fun _ => trivial, fun _ => ⟨fun _ => trivial, fun _ => trivial⟩⟩
  obtain ⟨ended, ran, -⟩ := Leads.exists returns
  rw [reply, answer, ran]
  exact Option.some_ne_none _

/-- A refused call returns and changes nothing, the log of the observers included. Which calls are
refused is told by `Accepts`; running and stepping end well whenever they are not, a step at once and
a run if it returns. -/
theorem refusal_changes_nothing (m : Machine δ) (c : Call) :
    (∀ e, m.reply c = some (.refused e) → e.IsRefusal → m.perform c = some m) ∧
      ((∃ e, m.reply c = some (.refused e) ∧ e.IsRefusal) ↔ ¬ m.Accepts c) ∧
      (c = .run ∨ c = .step → ∀ r, m.reply c = some r → (r = .done ↔ m.Accepts c)) ∧
      m.reply .step ≠ none := by
  obtain ⟨begun, kept⟩ := m.reply_of_accepts c
  have refused_iff : (∃ e, m.reply c = some (.refused e) ∧ e.IsRefusal) ↔ ¬ m.Accepts c :=
    ⟨fun ⟨e, refused, refusal⟩ accepted => begun accepted e refused refusal, fun no => (kept no).1⟩
  refine ⟨fun e refused refusal => (kept (refused_iff.mp ⟨e, refused, refusal⟩)).2, refused_iff,
    fun starts r replied => ⟨fun done => ?_, fun accepted => ?_⟩, m.reply_step_ne_none⟩
  · refine Classical.byContradiction fun no => ?_
    obtain ⟨e, refused, -⟩ := (kept no).1
    rw [replied, done] at refused
    cases refused
  · rcases reply_start starts replied with done | ⟨e, rfl, refusal⟩
    · exact done
    · exact absurd accepted (refused_iff.mp ⟨e, replied, refusal⟩)

theorem refusal_changes_nothing_waiting :
    let fresh : Machine Script :=
      { processor := .new 16 {} default, settings := { memorySize := 16 } }
    ∃ m, fresh.history [⟨default, 0, .assemble "in al, 5"⟩, ⟨default, 2, .run⟩] = some m ∧
      m.reply .run = some (.refused .busy) ∧ m.perform .run = some m ∧ ¬ m.Accepts .run := by
  intro fresh
  have busy : (fresh.history [⟨default, 0, .assemble "in al, 5"⟩, ⟨default, 2, .run⟩]).any fun m =>
      m.reply .run = some (.refused .busy) := by decide +kernel
  obtain ⟨m, led, busy⟩ := (Option.any_eq_true _ _).mp busy
  have busy := of_decide_eq_true busy
  obtain ⟨unchanged, refused, -⟩ := refusal_changes_nothing m .run
  exact ⟨m, led, busy, unchanged _ busy trivial, refused.mp ⟨_, busy, trivial⟩⟩

end Machine

end ReducedX86
