import ReducedX86.Machine

/-!
What a host does with a machine that is ready to run.

Time is simulated. The clock is a fixed period later each time it is read, and a wait takes no longer
than the time waited for.
-/
namespace ReducedX86.Machine

/-- How much later the clock is each time it is read. -/
def period : Time := 100

theorem period_pos : 0 < period := by decide

/-- What the clocks show from a moment on. The wall clock goes with the other one. -/
def clockFrom (start : Time) : Feed Reading where
  value n :=
    let instant := start + n * period
    { instant, wall := instant / milliseconds 1 }

/-- More turns of a batch than any host waits for. -/
def endurance : Nat := 1000000000000000000

variable {δ : Type}

/-- When the tick for a wakeup comes, if there was one at `before`. -/
def tickTime (m : Machine δ) (before wakeup : Time) : Time :=
  max (before + period) (max m.clock.head.instant wakeup)

theorem lt_tickTime (m : Machine δ) (before wakeup : Time) : before < m.tickTime before wakeup :=
  Nat.lt_of_lt_of_le (Nat.lt_add_of_pos_right period_pos) (Nat.le_max_left ..)

variable [PortDevice δ]

/-- Ends a run whose time is up; a machine that only waits is left as it is. -/
def giveUp (m : Machine δ) : Option (Machine δ) :=
  if m.running then ((stop (δ := δ)).on m).map (·.2) else some m

/-- The machine after a tick, with the clock at the moment of the tick. -/
def tickAt (m : Machine δ) (now : Time) : Option (Machine δ) :=
  { m with clock := clockFrom (now + period) }.tick now

/-- Ticks for each wakeup until the run has ended or cannot end before the deadline. -/
def tickUntil (deadline before : Time) (m : Machine δ) : Option (Machine δ) :=
  match m.nextWakeup with
  | none => some m
  | some wakeup =>
      if !m.running && !m.continues then some m
      else if deadline < wakeup ∨ deadline < before then m.giveUp
      else match m.tickAt (m.tickTime before wakeup) with
        | none => none
        | some m' => tickUntil deadline (m.tickTime before wakeup) m'
termination_by deadline + 1 - before
decreasing_by
  rename_i early
  exact Nat.sub_lt_sub_left (Nat.lt_succ_of_le (Nat.le_of_not_lt (not_or.mp early).2))
    (m.lt_tickTime before wakeup)

/-- Steps until the machine waits or a step faults, at most `limit` times. -/
def stepUpTo : Nat → MachineCall δ Unit
  | 0 => pure ()
  | limit + 1 => do
      step
      let m ← get
      if m.isRunningOrWaiting || m.processor.fault.isSome then pure () else stepUpTo limit

end ReducedX86.Machine
