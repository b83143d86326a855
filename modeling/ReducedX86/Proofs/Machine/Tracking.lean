import ReducedX86.Device.Script
import ReducedX86.Proofs.Machine.Chronicle

/-!
An observer can follow a machine by what it is told.

An observer that is attached before anything else hears every notification of a chronicle. Each entry
in the ledger says what the observer can conclude: whether the machine is running, and which faults it
has had. The theorem at the end puts this together for every history of calls.
-/
namespace ReducedX86

namespace Observers

/-- What was delivered to an observer, the oldest first. -/
def heard (o : Observers) (number : Nat) : List Notification :=
  (o.log.reverse.filter (·.1 == number)).map (·.2)

/-- The observer was given its number and is attached. -/
structure Watched (o : Observers) (number : Nat) : Prop where
  given : number < o.next
  attached : o.attached.count number = 1

theorem heard_notify {o : Observers} {number : Nat} (watched : o.Watched number)
    (n : Notification) : (o.notify n).heard number = o.heard number ++ [n] := by
  have told : (o.attached.map fun k => (k, n)).filter (·.1 == number) = [(number, n)] := by
    have once : o.attached.filter (· == number) = [number] := by
      rw [List.filter_beq, watched.attached]
      rfl
    rw [List.filter_map, Function.comp_def, once]
    rfl
  simp [heard, notify, told]

theorem Watched.attach {o : Observers} {number : Nat} (watched : o.Watched number) :
    o.attach.2.Watched number where
  given := Nat.lt_succ_of_lt watched.given
  attached := by
    have other : o.next ≠ number := Nat.ne_of_gt watched.given
    simp [Observers.attach, watched.attached, other]

theorem Watched.detach {o : Observers} {number other : Nat} (watched : o.Watched number)
    (apart : other ≠ number) : (o.detach other).2.Watched number where
  given := watched.given
  attached := by
    change (o.attached.filter (· ≠ other)).count number = 1
    rw [List.count_filter (by simpa using apart.symm)]
    exact watched.attached

end Observers

namespace Notification

/-- Whether an observer takes the machine for running after a notification. -/
def follow (running : Bool) : Notification → Bool
  | startedRunning => true
  | stoppedRunning _ => false
  | _ => running

/-- The notifications by which the machine is known to run or not. -/
def switches : Notification → Bool
  | startedRunning | stoppedRunning _ => true
  | _ => false

/-- The notifications that a run or a step has come to an end. -/
def ends : Notification → Bool
  | stoppedRunning _ | stepFinished _ => true
  | _ => false

/-- An observer goes by the latest switch. -/
theorem foldl_follow_iff (ns : List Notification) :
    ns.foldl follow false ↔ ns.reverse.find? switches = some startedRunning := by
  have latest (ns : List Notification) :
      ns.foldr (fun n running => follow running n) false ↔
        ns.find? switches = some startedRunning := by
    induction ns with
    | nil => simp
    | cons n rest ih =>
        cases n with
        | startedRunning | stoppedRunning s => simp [follow, switches]
        | assemblyFinished _ | assemblyFailed _ | reset | runtimeFault _ | stepFinished _
          | variableAdded _ | variableRemoved _ | variableRefused _ =>
            simpa [follow, switches] using ih
  rw [List.foldl_eq_foldr_reverse]
  exact latest ns.reverse

/-- Whoever goes from running to not running was told so. -/
theorem exists_stoppedRunning {ns : List Notification} (stops : ns.foldl follow true = false) :
    ∃ s, stoppedRunning s ∈ ns := by
  induction ns with
  | nil => exact absurd stops.symm Bool.false_ne_true
  | cons n rest ih =>
      cases n with
      | stoppedRunning s => exact ⟨s, List.mem_cons_self⟩
      | startedRunning | assemblyFinished _ | assemblyFailed _ | reset | runtimeFault _
        | stepFinished _ | variableAdded _ | variableRemoved _ | variableRefused _ =>
          obtain ⟨s, member⟩ := ih stops
          exact ⟨s, List.mem_cons_of_mem _ member⟩

end Notification

namespace Machine

variable {δ : Type}

namespace Deed

def notice? : Deed δ → Option Notification
  | told _ n => some n
  | recorded _ => none

def recorded? : Deed δ → Option Fault
  | told _ _ => none
  | recorded f => some f

def reported? : Deed δ → Option Fault
  | told _ (.runtimeFault f) => some f
  | _ => none

end Deed

/-- What a chronicle tells the observers. -/
def notices (deeds : List (Deed δ)) : List Notification := deeds.filterMap Deed.notice?

/-- The faults that are recorded in a chronicle. -/
def recorded (deeds : List (Deed δ)) : List Fault := deeds.filterMap Deed.recorded?

/-- The faults that are reported in a chronicle. -/
def reported (deeds : List (Deed δ)) : List Fault := deeds.filterMap Deed.reported?

variable {l l' : Ledger}

/-- What an entry in the ledger says. -/
structure Deed.Entry (d : Deed δ) (l l' : Ledger) : Prop where
  running : l'.running = d.notice?.toList.foldl Notification.follow l.running
  owed : l.owed ++ d.recorded?.toList = d.reported?.toList ++ l'.owed
  starts : d.notice? = some .startedRunning → l.running = false
  ends : ∀ n ∈ d.notice?, n.ends → l.owed = []

theorem Deed.entry {d : Deed δ} (entered : d.enter l = some l') : d.Entry l l' := by
  obtain ⟨running, owed⟩ := l
  cases d with
  | recorded f =>
      cases entered
      constructor <;> simp [notice?, recorded?, reported?]
  | told teller n =>
      cases n with
      | startedRunning =>
          cases running with
          | true => cases entered
          | false =>
              cases entered
              constructor <;> simp [notice?, recorded?, reported?, Notification.follow,
                Notification.ends]
      | runtimeFault f =>
          cases owed with
          | nil => cases entered
          | cons g rest =>
              simp only [enter, Option.ite_none_right_eq_some] at entered
              obtain ⟨rfl, entered⟩ := entered
              cases entered
              constructor <;> simp [notice?, recorded?, reported?, Notification.follow,
                Notification.ends]
      | stoppedRunning s | stepFinished s =>
          simp only [enter, Option.ite_none_right_eq_some] at entered
          obtain ⟨rfl, entered⟩ := entered
          cases entered
          constructor <;> simp [notice?, recorded?, reported?, Notification.follow]
      | assemblyFinished _ | assemblyFailed _ | reset | variableAdded _ | variableRemoved _
        | variableRefused _ =>
          cases entered
          constructor <;> simp [notice?, recorded?, reported?, Notification.follow,
            Notification.ends]

/-! Whole chronicles -/

variable {deeds : List (Deed δ)}

/-- A chronicle that can be entered can be entered up to any point. -/
theorem entered_append {before after : List (Deed δ)}
    (entered : (before ++ after).foldlM Deed.enter l = some l') :
    ∃ middle, before.foldlM Deed.enter l = some middle ∧
      after.foldlM Deed.enter middle = some l' := by
  rw [List.foldlM_append] at entered
  exact Option.bind_eq_some_iff.mp entered

theorem entered_cons {d : Deed δ} {rest : List (Deed δ)}
    (entered : (d :: rest).foldlM Deed.enter l = some l') :
    ∃ next, d.Entry l next ∧ rest.foldlM Deed.enter next = some l' := by
  rw [List.foldlM_cons] at entered
  obtain ⟨next, first, later⟩ := Option.bind_eq_some_iff.mp entered
  exact ⟨next, Deed.entry first, later⟩

theorem filterMap_cons_toList {α β : Type} (f : α → Option β) (a : α) (rest : List α) :
    (a :: rest).filterMap f = (f a).toList ++ rest.filterMap f := by
  cases known : f a <;> simp [known]

/-- The observers take the machine for running as they are told. -/
theorem running_of_entered (entered : deeds.foldlM Deed.enter l = some l') :
    l'.running = (notices deeds).foldl Notification.follow l.running := by
  induction deeds generalizing l with
  | nil =>
      cases entered
      rfl
  | cons d rest ih =>
      obtain ⟨next, entry, later⟩ := entered_cons entered
      rw [ih later, entry.running, notices, notices, filterMap_cons_toList, List.foldl_append]

/-- Faults are reported in the order in which they are recorded; those that are owed are the rest. -/
theorem owed_of_entered (entered : deeds.foldlM Deed.enter l = some l') :
    l.owed ++ recorded deeds = reported deeds ++ l'.owed := by
  induction deeds generalizing l with
  | nil =>
      cases entered
      exact List.append_nil _
  | cons d rest ih =>
      obtain ⟨next, entry, later⟩ := entered_cons entered
      rw [recorded, reported, filterMap_cons_toList, filterMap_cons_toList, ← List.append_assoc,
        entry.owed, List.append_assoc, List.append_assoc]
      exact congrArg _ (ih later)

/-- Where a start is told, the machine is not taken for running. -/
theorem stopped_of_entered (entered : deeds.foldlM Deed.enter l = some l')
    {before after : List Notification}
    (split : notices deeds = before ++ .startedRunning :: after) :
    before.foldl Notification.follow l.running = false := by
  obtain ⟨first, rest, rfl, rfl, told⟩ := List.filterMap_eq_append_iff.mp split
  obtain ⟨silent, d, later, rfl, quiet, start, -⟩ := List.filterMap_eq_cons_iff.mp told
  rw [← List.append_assoc] at entered
  obtain ⟨middle, early, late⟩ := entered_append entered
  obtain ⟨next, entry, -⟩ := entered_cons late
  have followed := running_of_entered early
  rw [entry.starts start, notices, List.filterMap_append, List.filterMap_eq_nil_iff.mpr quiet,
    List.append_nil] at followed
  exact followed.symm

/-- Two starts are not told without a stop between them. -/
theorem exists_stop_between (entered : deeds.foldlM Deed.enter l = some l')
    {before between after : List Notification}
    (split : notices deeds = before ++ .startedRunning :: between ++ .startedRunning :: after) :
    ∃ s, .stoppedRunning s ∈ between := by
  have stopped := stopped_of_entered entered split
  rw [List.foldl_append, List.foldl_cons] at stopped
  exact Notification.exists_stoppedRunning stopped

/-- When something ends, every fault that was recorded has been reported. -/
theorem reported_of_ends {running : Bool} (entered : deeds.foldlM Deed.enter ⟨running, []⟩ = some l')
    {before after : List (Deed δ)} {teller : Machine δ} {n : Notification}
    (split : deeds = before ++ .told teller n :: after) (ends : n.ends) :
    reported before = recorded before := by
  subst split
  obtain ⟨middle, early, late⟩ := entered_append entered
  obtain ⟨next, entry, -⟩ := entered_cons late
  have owed := owed_of_entered early
  rw [entry.ends n rfl ends, List.append_nil, List.nil_append] at owed
  exact owed.symm

/-- No fault is reported before it is recorded. -/
theorem reported_prefix {running : Bool} (entered : deeds.foldlM Deed.enter ⟨running, []⟩ = some l')
    {before after : List (Deed δ)} (split : deeds = before ++ after) :
    reported before <+: recorded before := by
  subst split
  obtain ⟨middle, early, -⟩ := entered_append entered
  exact ⟨middle.owed, (owed_of_entered early).symm⟩

section Observers

variable [PortDevice δ] {watcher : Nat} {preparing : Bool} {m m' : Machine δ}

theorem Does.hears (did : Does watcher preparing m deeds m') (watched : m.observers.Watched watcher) :
    m'.observers.heard watcher = m.observers.heard watcher ++ notices deeds ∧
      m'.observers.Watched watcher := by
  have silent (faults : List Fault) : notices (faults.map (Deed.recorded (δ := δ))) = [] := by
    simp [notices, List.filterMap_map, Function.comp_def, Deed.notice?]
  cases did with
  | told n => exact ⟨Observers.heard_notify watched n, watched.given, watched.attached⟩
  | stepped | completed => rw [silent, List.append_nil]; exact ⟨rfl, watched⟩
  | taken | marked | edited | hosted | exchanged | wiped | prepared | loaded =>
      exact ⟨(List.append_nil _).symm, watched⟩
  | attached => exact ⟨(List.append_nil _).symm, watched.attach⟩
  | detached number other => exact ⟨(List.append_nil _).symm, watched.detach other⟩

/-- The watcher hears all that is told. -/
theorem Chronicle.hears (chronicle : Chronicle watcher preparing m deeds m')
    (watched : m.observers.Watched watcher) :
    m'.observers.heard watcher = m.observers.heard watcher ++ notices deeds := by
  induction chronicle with
  | refl => exact (List.append_nil _).symm
  | next did _ ih =>
      obtain ⟨first, still⟩ := did.hears watched
      rw [ih still, first, List.append_assoc, notices, notices, notices, List.filterMap_append]

theorem tracks_meet (e : Event) (stays : e.call ≠ .detach watcher) (reachable : Reachable m) :
    Leads (m.meet e) (Tracks watcher true m) True := by
  have hosts : Tracks watcher true m (m.attended e.clock e.patience) :=
    accounted_quiet (.hosted e.clock e.patience)
  have reachable' : Reachable (m.attended e.clock e.patience) := .attended _ _ reachable
  refine (tracks_perform e.call (fun _ => rfl) ?_ (consistent_of_reachable reachable')
    (unfaulted_of_reachable reachable')).mono (fun _ => hosts.trans) id
  rintro number detaches rfl
  exact stays detaches

theorem tracks_history (events : List Event) (stays : ∀ e ∈ events, e.call ≠ .detach watcher)
    (reachable : Reachable m) : Leads (m.history events) (Tracks watcher true m) True := by
  induction events generalizing m with
  | nil => exact .refl
  | cons e rest ih =>
      obtain ⟨here, later⟩ := List.forall_mem_cons.mp stays
      rw [Machine.history]
      cases met : m.meet e with
      | none => trivial
      | some m' =>
          have tracks := (tracks_meet e here reachable).of_some met
          exact (ih later (reachable.meet met)).mono (fun _ => tracks.trans) id

/-- An observer that is attached to a new machine, and is not detached, can tell from what it hears
whether the machine is running: the latest start or stop says so, and a stop comes between any two
starts. The faults it hears of are those that the processor records, in their order and each once,
and no later than the end of what they happened in. The status of an end is that of the machine,
unless it speaks of a reset or a stop. -/
theorem observer_tracks_machine {settings : Settings} {device : δ} {draws : Feed Word}
    {fresh start m : Machine δ} (made : Machine.new settings device draws = .ok fresh)
    (attached : fresh.perform .attach = some start) {events : List Event}
    (stays : ∀ e ∈ events, e.call ≠ .detach fresh.observers.attach.1)
    (led : start.history events = some m) :
    let observer := fresh.observers.attach.1
    let heard := m.observers.heard observer
    (m.running ↔ heard.reverse.find? Notification.switches = some .startedRunning) ∧
      (∀ before between after,
        heard = before ++ .startedRunning :: between ++ .startedRunning :: after →
          ∃ s, .stoppedRunning s ∈ between) ∧
      ∃ deeds, Chronicle observer true start deeds m ∧ heard = notices deeds ∧
        reported deeds = recorded deeds ∧
        (∀ before after, deeds = before ++ after → reported before <+: recorded before) ∧
        (∀ before teller n after, deeds = before ++ .told teller n :: after → n.ends →
          reported before = recorded before) ∧
        ∀ teller s, .told teller (.stoppedRunning s) ∈ deeds ∨ .told teller (.stepFinished s) ∈ deeds →
          s.reset = false → s.stopCalled = false →
            s.halted = teller.isHalted ∧ s.pendingTransfer = teller.hasPendingTransfer ∧
              s.faulted = teller.processor.fault.isSome := by
  intro observer heard
  have reachable : Reachable start := .call .attach (.new made) attached
  obtain rfl := eq_of_new made
  obtain rfl := Option.some.inj attached
  obtain ⟨deeds, chronicle, entered, honest⟩ := (tracks_history events stays reachable).of_some led
  have hears : heard = notices deeds := chronicle.hears ⟨Nat.zero_lt_one, rfl⟩
  have running := running_of_entered entered
  rw [← hears] at running
  have owed := owed_of_entered entered
  rw [List.append_nil, List.nil_append] at owed
  refine ⟨?_, fun before between after split => exists_stop_between entered (hears.symm.trans split),
    deeds, chronicle, hears, owed.symm, fun _ _ => reported_prefix entered,
    fun _ _ _ _ => reported_of_ends entered, ?_⟩
  · rw [show m.running = _ from running]
    exact Notification.foldl_follow_iff heard
  · rintro teller s (member | member) kept unasked
    all_goals
      have same : s = teller.status := honest _ member kept unasked
      rw [same]
      exact ⟨rfl, rfl, rfl⟩

/-- A program that runs past its end is heard to fault before it is heard to stop. -/
theorem observer_tracks_machine_fault :
    let fresh : Machine Script :=
      { processor := .new 16 {} default, settings := { memorySize := 16 } }
    let start : Machine Script := { fresh with observers := fresh.observers.attach.2 }
    ∃ m, start.history [⟨default, 0, .assemble "inc eax"⟩, ⟨default, 3, .run⟩] = some m ∧
      let heard := m.observers.heard 0
      heard = [.reset, .assemblyFinished false, .startedRunning,
          .runtimeFault (.invalidInstructionAddress 1044), .stoppedRunning { faulted := true }] ∧
        (m.running ↔ heard.reverse.find? Notification.switches = some .startedRunning) ∧
        ∃ deeds, Chronicle 0 true start deeds m ∧ heard = notices deeds ∧
          reported deeds = recorded deeds := by
  intro fresh start
  have made : Machine.new { memorySize := 16 } {} default = .ok fresh := rfl
  have stays : ∀ e ∈ ([⟨default, 0, .assemble "inc eax"⟩, ⟨default, 3, .run⟩] : List Event),
      e.call ≠ .detach fresh.observers.attach.1 := by simp
  have heard : (start.history [⟨default, 0, .assemble "inc eax"⟩, ⟨default, 3, .run⟩]).map
      (·.observers.heard 0) = some [.reset, .assemblyFinished false, .startedRunning,
        .runtimeFault (.invalidInstructionAddress 1044), .stoppedRunning { faulted := true }] := by
    decide +kernel
  obtain ⟨m, led, heard⟩ := Option.map_eq_some_iff.mp heard
  obtain ⟨running, -, deeds, chronicle, hears, same, -⟩ :=
    observer_tracks_machine made rfl stays led
  exact ⟨m, led, heard, running, deeds, chronicle, hears, same⟩

end Observers

end Machine

end ReducedX86
