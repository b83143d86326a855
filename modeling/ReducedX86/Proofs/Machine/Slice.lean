import ReducedX86.Proofs.Machine.Consistency
import ReducedX86.Proofs.Processor.Lifetime

/-!
One slice of a run.

A batch with a time slice of zero is paused at its first look at the clock, which comes when its
counter is past `stepsPerCheck`, or ends where the run ends. The counter has 32 bits, and is never
past the greatest number that it can show: with that as `stepsPerCheck` there is no look, and a run
without an end does not return.
-/
namespace ReducedX86

namespace Observers

/-- The observers after they were told of faults, the oldest first. -/
def report (o : Observers) (faults : List Fault) : Observers :=
  faults.foldl (fun o f => o.notify (.runtimeFault f)) o

end Observers

namespace Feed

variable {α : Type}

/-- What is left when `n` values have been taken. -/
def drop (f : Feed α) (n : Nat) : Feed α := { f with taken := f.taken + n }

/-- The clock has gone on whenever it is looked at again. -/
def Advances (clock : Feed Reading) : Prop :=
  ∀ n, (clock.get 0).instant < (clock.get (n + 1)).instant

end Feed

namespace Machine

variable {δ : Type}

/-- The machine with a processor whose faults have been reported. -/
def reporting (m : Machine δ) (p : Processor δ) : Machine δ :=
  { m with
    processor := { p with faultLog := [] }
    observers := m.observers.report p.faultLog.reverse }

theorem reportFaults_eq_reporting (m : Machine δ) : m.reportFaults = m.reporting m.processor := by
  have told (faults : List Fault) (m : Machine δ) :
      faults.foldl (fun m f => m.notify (.runtimeFault f)) m =
        { m with observers := m.observers.report faults } := by
    induction faults generalizing m with
    | nil => rfl
    | cons f rest ih => exact ih (m.notify (.runtimeFault f))
  exact told _ _

theorem takeResetRequest_of_content [PortDevice δ] {m : Machine δ}
    (content : PortDevice.takeResetRequest m.processor.device = (false, m.processor.device)) :
    m.takeResetRequest = (false, m) := by
  rw [takeResetRequest, content]
  rfl

theorem reporting_of_clean {p : Processor δ} (clean : p.faultLog = []) (m : Machine δ) :
    m.reporting p = { m with processor := p } := by
  have same : ({ p with faultLog := [] } : Processor δ) = p := by rw [← clean]
  rw [reporting, same, clean]
  rfl

section Counter

/-- The counter of a batch is never past `stepsPerCheck`. -/
abbrev Unchecked (m : Machine δ) : Prop := m.settings.stepsPerCheck = 4294967295

/-- How many steps come before a look at the clock. -/
def sliceLength (m : Machine δ) : ℕ∞ :=
  if m.Unchecked then ⊤ else m.settings.stepsPerCheck.toNat

/-- The counter shows how many steps have been taken since the last look, unless no look comes. -/
def Counts (m : Machine δ) (count : Word) (taken : Nat) : Prop :=
  m.Unchecked ∨ count.toNat = taken

variable {m : Machine δ} {count : Word} {taken : Nat}

/-- Before the end of a slice the counter counts, and there is no look. -/
theorem Counts.look_of_lt (counts : m.Counts count taken) (within : (taken : ℕ∞) < m.sliceLength)
    (started : Time) :
    m.look started count = some (count + 1, m) ∧ m.Counts (count + 1) (taken + 1) := by
  have inside : count + 1 ≤ m.settings.stepsPerCheck ∧ m.Counts (count + 1) (taken + 1) := by
    rcases counts with greatest | counts
    · refine ⟨?_, .inl greatest⟩
      rw [greatest, UInt32.le_iff_toNat_le]
      exact Nat.le_of_lt_succ (count + 1).toNat_lt
    · rw [sliceLength] at within
      split at within
      · rename_i greatest
        refine ⟨?_, .inl greatest⟩
        rw [greatest, UInt32.le_iff_toNat_le]
        exact Nat.le_of_lt_succ (count + 1).toNat_lt
      · have within : taken < m.settings.stepsPerCheck.toNat := by exact_mod_cast within
        have bound := m.settings.stepsPerCheck.toNat_lt
        have next : (count + 1).toNat = taken + 1 := by
          rw [UInt32.toNat_add, counts]
          exact Nat.mod_eq_of_lt (by simp only [UInt32.reduceToNat]; omega)
        refine ⟨?_, .inr next⟩
        rw [UInt32.le_iff_toNat_le, next]
        exact within
  exact ⟨if_pos inside.1, inside.2⟩

/-- At the end of a slice of no time the look finds it used up. -/
theorem Counts.look_of_eq (counts : m.Counts count taken) (ended : m.sliceLength = taken)
    (slice : m.settings.timeSlice = 0) {started : Time} (elapsed : started < m.clock.head.instant) :
    m.look started count = none := by
  rw [sliceLength] at ended
  split at ended
  · exact absurd ended.symm (ENat.natCast_ne_top taken)
  · rename_i counted
    have ended : m.settings.stepsPerCheck.toNat = taken := by exact_mod_cast ended
    have bound : m.settings.stepsPerCheck.toNat < 4294967295 := by
      refine Nat.lt_of_le_of_ne (Nat.le_of_lt_succ m.settings.stepsPerCheck.toNat_lt) fun same => ?_
      exact counted (UInt32.toNat_inj.mp same)
    have counts : count.toNat = taken := counts.resolve_left counted
    have past : ¬ count + 1 ≤ m.settings.stepsPerCheck := by
      rw [UInt32.le_iff_toNat_le, UInt32.toNat_add, counts, ended]
      simp only [UInt32.reduceToNat]
      omega
    have later : milliseconds m.tock.settings.timeSlice <
        m.tock.processor.now.instant - started := by
      change milliseconds m.settings.timeSlice < m.clock.head.instant - started
      rw [slice]
      exact Nat.sub_pos_of_lt elapsed
    rw [look, if_neg past]
    exact if_pos later

end Counter

variable [PortDevice δ]

section Batch

open Processor

variable {b : Machine δ} {feed : Feed Reading} {p : Processor δ} {c : Nat}

omit [PortDevice δ] in
/-- The machine in a batch, `c` steps after its start. -/
def within (b : Machine δ) (feed : Feed Reading) (c : Nat) (p : Processor δ) : Machine δ :=
  { b with clock := feed.drop (c + 1) }.reporting (p.atTime (feed.get c))

/-- What a batch leaves after `c` steps: the look at the clock and the time at which it is to go on
are two more readings. -/
def yielded (b : Machine δ) (feed : Feed Reading) (c : Nat) (p : Processor δ) : Machine δ :=
  if p.canContinue then
    { b.within feed (c + 2) p with
      resumeAt := some ((feed.get (c + 2)).instant + milliseconds b.settings.resumeDelay) }
  else (b.within feed c p).finishRun

theorem turn_of_ended (ended : p.canContinue = false) (started : Time) (count : Word) :
    (b.within feed c p).turn started count = .finished (b.yielded feed c p) := by
  have rests : (b.within feed c p).processor.canContinue = false := ended
  rw [turn, yielded, rests, ended]
  rfl

theorem turn_of_used (going : p.canContinue) {count : Word} (counts : b.Counts count c)
    (used : b.sliceLength = c) (slice : b.settings.timeSlice = 0)
    (elapsed : (feed.get 0).instant < (feed.get (c + 1)).instant) :
    (b.within feed c p).turn (feed.get 0).instant count = .finished (b.yielded feed c p) := by
  have goes : (b.within feed c p).processor.canContinue = true := going
  have looked : (b.within feed c p).look (feed.get 0).instant count = none :=
    Counts.look_of_eq (m := b.within feed c p) counts used slice elapsed
  rw [turn, yielded, goes, going, looked]
  rfl

theorem turn_of_going (going : p.canContinue) {count : Word} (counts : b.Counts count c)
    (inside : (c : ℕ∞) < b.sliceLength) (clean : p.faultLog = []) {stepped : Processor δ}
    (steps : ((p.atTime (feed.get (c + 1))).step false).2 = stepped)
    (content : PortDevice.takeResetRequest stepped.device = (false, stepped.device))
    (started : Time) :
    (b.within feed c p).turn started count =
      .next (count + 1) (b.within feed (c + 1) stepped) := by
  have goes : (b.within feed c p).processor.canContinue = true := going
  have looked : (b.within feed c p).look started count = some (count + 1, b.within feed c p) :=
    (Counts.look_of_lt (m := b.within feed c p) counts inside started).1
  have unlogged : (p.atTime (feed.get c)).faultLog = [] := clean
  have timed : stepped.atTime (feed.get (c + 1)) = stepped := by
    have now := congrArg Prod.snd (standing_step false (p.atTime (feed.get (c + 1))))
    rw [steps] at now
    have now : stepped.now = feed.get (c + 1) := now
    rw [Processor.atTime, ← now]
  have reported : { (b.within feed c p).tock with
      processor := ((b.within feed c p).tock.processor.step false).2 }.reportFaults =
      b.within feed (c + 1) stepped := by
    rw [reportFaults_eq_reporting, within, reporting_of_clean unlogged, within, timed, ← steps]
    rfl
  rw [turn, goes, looked]
  simp only [Bool.not_true, Bool.false_eq_true, ↓reduceIte, takeStep, reported]
  rw [takeResetRequest_of_content content]

/-- While a run goes on, no step of it has recorded a fault. -/
theorem stateAfter_clean {clock : Nat → Reading} (ready : p.control.Ready) (clean : p.faultLog = [])
    {n : Nat} (alive : (n : ℕ∞) < lifetime clock p) :
    (stateAfter clock p n).control.Ready ∧ (stateAfter clock p n).faultLog = [] := by
  induction n with
  | zero => exact ⟨ready, clean⟩
  | succ n ih =>
      have before : (n : ℕ∞) < lifetime clock p :=
        lt_trans (by exact_mod_cast Nat.lt_succ_self n) alive
      obtain ⟨ready, clean⟩ := ih before
      have going := lt_lifetime_iff.mp alive (n + 1) le_rfl
      have settled := step_settled false ((stateAfter clock p n).atTime (clock n)) ready
      have ready' := ready_of_canContinue settled going
      refine ⟨ready', ?_⟩
      -- A fault in the log would also be the last fault, and then the run would not go on.
      rcases step_faults false ((stateAfter clock p n).atTime (clock n)) with
        ⟨-, sameLog⟩ | ⟨f, faulted, -⟩
      · exact sameLog.trans clean
      · cases faulted.symm.trans ready'.fault

/-- Nothing interferes with a batch of the run from `p`, whose steps start at step `base`. -/
structure Undisturbed (b : Machine δ) (feed : Feed Reading) (clock : Nat → Reading)
    (p : Processor δ) (base : Nat) : Prop where
  ready : p.control.Ready
  clean : p.faultLog = []
  content : ∀ n : Nat, (n : ℕ∞) ≤ lifetime clock p →
    PortDevice.takeResetRequest (stateAfter clock p n).device =
      (false, (stateAfter clock p n).device)
  slice : b.settings.timeSlice = 0
  advances : feed.Advances
  reads : ∀ c : Nat, (c : ℕ∞) < b.sliceLength → clock (base + c) = feed.get (c + 1)

variable {clock : Nat → Reading} {base : Nat} {count : Word}

/-- A turn within the run and within the slice takes the next step of the run. -/
theorem Undisturbed.turn_eq (alone : b.Undisturbed feed clock p base) (counts : b.Counts count c)
    (alive : ((base + c : Nat) : ℕ∞) < lifetime clock p) (inside : (c : ℕ∞) < b.sliceLength)
    (started : Time) :
    (b.within feed c (stateAfter clock p (base + c))).turn started count =
      .next (count + 1) (b.within feed (c + 1) (stateAfter clock p (base + (c + 1)))) := by
  have going := lt_lifetime_iff.mp alive (base + c) le_rfl
  have clean := (stateAfter_clean alone.ready alone.clean alive).2
  have next : ((base + c + 1 : Nat) : ℕ∞) ≤ lifetime clock p := by
    exact_mod_cast Order.add_one_le_of_lt alive
  apply turn_of_going going counts inside clean _ (alone.content _ next)
  rw [← alone.reads c inside]
  rfl

/-- A batch gets to the end of the run or of its slice, whichever comes first. -/
theorem Undisturbed.runTurns_eq (alone : b.Undisturbed feed clock p base)
    (counts : b.Counts count c) {e : Nat}
    (ends : ((base + (c + e) : Nat) : ℕ∞) = min (lifetime clock p) (base + b.sliceLength)) :
    runTurns (feed.get 0).instant (e + 1) count (b.within feed c (stateAfter clock p (base + c))) =
      some (b.yielded feed (c + e) (stateAfter clock p (base + (c + e)))) := by
  induction e generalizing c count with
  | zero =>
      rw [runTurns]
      cases going : (stateAfter clock p (base + c)).canContinue with
      | false => rw [turn_of_ended going, Nat.add_zero]
      | true =>
          have reached : ((base + c : Nat) : ℕ∞) ≤ lifetime clock p := ends ▸ min_le_left _ _
          have alive := lt_lifetime_of_canContinue reached going
          have used : b.sliceLength = c := by
            rcases min_choice (lifetime clock p) (base + b.sliceLength) with first | first
            · rw [first] at ends
              exact absurd ends alive.ne
            · rw [first, Nat.add_zero, Nat.cast_add] at ends
              exact ENat.add_right_injective_of_ne_top (ENat.natCast_ne_top base) ends.symm
          rw [turn_of_used going counts used alone.slice (alone.advances c), Nat.add_zero]
  | succ e ih =>
      have before : ((base + c : Nat) : ℕ∞) < min (lifetime clock p) (base + b.sliceLength) := by
        rw [← ends]
        exact_mod_cast (by omega : base + c < base + (c + (e + 1)))
      obtain ⟨alive, inside⟩ := lt_min_iff.mp before
      have inside : (c : ℕ∞) < b.sliceLength := by
        rw [Nat.cast_add] at inside
        exact (ENat.add_lt_add_iff_left (ENat.natCast_ne_top base)).mp inside
      rw [runTurns, alone.turn_eq counts alive inside]
      have shift : c + (e + 1) = c + 1 + e := by omega
      rw [shift] at ends ⊢
      exact ih (Counts.look_of_lt counts inside 0).2 ends

/-- A batch without an end is not over, however long it is followed. -/
theorem Undisturbed.runTurns_eq_none (alone : b.Undisturbed feed clock p base)
    (counts : b.Counts count c) (endless : lifetime clock p = ⊤) (unchecked : b.sliceLength = ⊤)
    (started : Time) (turns : Nat) :
    runTurns started turns count (b.within feed c (stateAfter clock p (base + c))) = none := by
  induction turns generalizing c count with
  | zero => rfl
  | succ turns ih =>
      have alive : ((base + c : Nat) : ℕ∞) < lifetime clock p :=
        endless ▸ ENat.natCast_lt_top _
      have inside : (c : ℕ∞) < b.sliceLength := unchecked ▸ ENat.natCast_lt_top _
      rw [runTurns, alone.turn_eq counts alive inside]
      exact ih (Counts.look_of_lt counts inside 0).2

end Batch

end Machine

end ReducedX86
