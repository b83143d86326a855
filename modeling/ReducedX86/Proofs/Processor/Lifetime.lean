import Mathlib.Data.ENat.Lattice
import ReducedX86.Proofs.Processor.Step

/-!
How long a run lasts.

`stateAfter` is the run without an end: step after step, each at its own time on the host's clock.
Its `lifetime` is the number of steps until the processor cannot continue, and is infinite if it
always can. `Processor.run` takes as many steps as both its limit and the lifetime admit.
-/
namespace ReducedX86

namespace Processor

variable {δ : Type} [PortDevice δ]

omit [PortDevice δ] in
/-- The processor at another time. -/
def atTime (p : Processor δ) (now : Reading) : Processor δ := { p with now }

/-- The processor after `n` steps, of which step `i` is taken at the time `clock i`. -/
def stateAfter (clock : Nat → Reading) (p : Processor δ) : Nat → Processor δ
  | 0 => p
  | n + 1 => (step false ((stateAfter clock p n).atTime (clock n))).2

/-- After how many steps the processor cannot continue. -/
noncomputable def lifetime (clock : Nat → Reading) (p : Processor δ) : ℕ∞ :=
  ⨅ n ∈ {n | (stateAfter clock p n).canContinue = false}, (n : ℕ∞)

variable {clock : Nat → Reading} {p : Processor δ}

theorem lt_lifetime_iff {n : Nat} :
    (n : ℕ∞) < lifetime clock p ↔ ∀ i ≤ n, (stateAfter clock p i).canContinue := by
  rw [← ENat.add_one_le_iff (ENat.natCast_ne_top n), lifetime, le_iInf₂_iff]
  constructor
  · intro bound i upper
    by_contra ended
    have later := bound i (Bool.eq_false_iff.mpr ended)
    have : n + 1 ≤ i := by exact_mod_cast later
    omega
  · intro going i ended
    -- A processor that cannot continue at `i ≤ n` would contradict `going`.
    have later : n + 1 ≤ i := by
      by_contra early
      have goes := going i (by omega)
      rw [ended] at goes
      cases goes
    exact_mod_cast later

theorem lifetime_eq_of_ended {n : Nat} (reached : (n : ℕ∞) ≤ lifetime clock p)
    (ended : (stateAfter clock p n).canContinue = false) : lifetime clock p = n :=
  le_antisymm (iInf₂_le n ended) reached

theorem lt_lifetime_of_canContinue {n : Nat} (reached : (n : ℕ∞) ≤ lifetime clock p)
    (going : (stateAfter clock p n).canContinue) : (n : ℕ∞) < lifetime clock p := by
  rw [lt_lifetime_iff]
  intro i upper
  rcases Nat.eq_or_lt_of_le upper with rfl | earlier
  · exact going
  · have alive : (i : ℕ∞) < lifetime clock p := lt_of_lt_of_le (by exact_mod_cast earlier) reached
    exact lt_lifetime_iff.mp alive i le_rfl

/-- How many of at most `limit` steps a run takes. -/
noncomputable def stepsWithin (clock : Nat → Reading) (p : Processor δ) (limit : Nat) : Nat :=
  (min (limit : ℕ∞) (lifetime clock p)).toNat

theorem stepsWithin_of_le {limit : Nat} (reached : (limit : ℕ∞) ≤ lifetime clock p) :
    stepsWithin clock p limit = limit := by
  rw [stepsWithin, min_eq_left reached, ENat.toNat_natCast]

theorem stepsWithin_of_ended {n limit : Nat} (lasts : lifetime clock p = n) (upper : n ≤ limit) :
    stepsWithin clock p limit = n := by
  have bound : (n : ℕ∞) ≤ limit := by exact_mod_cast upper
  rw [stepsWithin, lasts, min_eq_right bound, ENat.toNat_natCast]

theorem now_stateAfter_succ (clock : Nat → Reading) (p : Processor δ) (n : Nat) :
    (stateAfter clock p (n + 1)).now = clock n :=
  congrArg Prod.snd (standing_step false ((stateAfter clock p n).atTime (clock n)))

/-- While the clock shows the same time, the steps are those of the processor itself. -/
theorem stateAfter_succ {n : Nat} (same : (stateAfter clock p n).now = clock n) :
    stateAfter clock p (n + 1) = (step false (stateAfter clock p n)).2 := by
  rw [stateAfter, atTime, ← same]

theorem runFrom_eq {n : Nat} (limit : Nat) (frozen : ∀ i, (stateAfter clock p i).now = clock i)
    (reached : (n : ℕ∞) ≤ lifetime clock p) :
    runFrom n limit (stateAfter clock p n) =
      (stepsWithin clock p (n + limit), stateAfter clock p (stepsWithin clock p (n + limit))) := by
  induction limit generalizing n with
  | zero => rw [runFrom, Nat.add_zero, stepsWithin_of_le reached]
  | succ limit ih =>
      rw [runFrom]
      split
      · rename_i going
        have alive := lt_lifetime_of_canContinue reached going
        have next := ih (n := n + 1) (by exact_mod_cast Order.add_one_le_of_lt alive)
        rw [stateAfter_succ (frozen n), Nat.add_right_comm] at next
        exact next
      · rename_i ended
        have lasts := lifetime_eq_of_ended reached (Bool.eq_false_iff.mpr ended)
        rw [stepsWithin_of_ended lasts (Nat.le_add_right n _)]

/-- A run takes as many steps as its limit and the lifetime admit. -/
theorem run_eq (limit : Nat) (p : Processor δ) :
    p.run limit =
      let forgetful : Processor δ := { p with fault := none }
      let taken := stepsWithin (fun _ => p.now) forgetful limit
      (taken, stateAfter (fun _ => p.now) forgetful taken) := by
  have frozen (i : Nat) :
      (stateAfter (fun _ => p.now) { p with fault := none } i).now = p.now := by
    cases i with
    | zero => rfl
    | succ i => exact now_stateAfter_succ _ _ i
  have started := runFrom_eq (n := 0) limit frozen (by simp)
  rw [Nat.zero_add] at started
  exact started

/-! Runs without an end -/

omit [PortDevice δ] in
/-- The processor is at a jump to itself, and no interrupt leads away from it. -/
structure Spins (p : Processor δ) : Prop where
  ready : p.control.Ready
  masked : p.flags.interrupt = false
  found : ∃ position, p.instructionAt? p.nextInstruction =
    some { op := .control .jmp, op1 := some (.label p.nextInstruction), position }

omit [PortDevice δ] in
theorem Spins.canContinue {p : Processor δ} (spins : p.Spins) : p.canContinue = true := by
  have halted : p.halted = false := spins.ready.halted
  have fault : p.fault = none := spins.ready.fault
  have free : p.pendingTransfer = none := spins.ready.pendingTransfer
  rw [Processor.canContinue, halted, fault, free]
  rfl

omit [PortDevice δ] in
theorem Spins.atTime {p : Processor δ} (spins : p.Spins) (now : Reading) : (p.atTime now).Spins :=
  ⟨spins.ready, spins.masked, spins.found⟩

omit [PortDevice δ] in
theorem Spins.syncEip {p : Processor δ} (spins : p.Spins) : p.syncEip.Spins := by
  refine ⟨?_, spins.masked, spins.found⟩
  rw [control_syncEip]
  exact spins.ready

theorem Spins.step {p : Processor δ} (spins : p.Spins) : (step false p).2.Spins := by
  obtain ⟨position, found⟩ := spins.found
  have masked : p.syncEip.flags.interrupt = false := spins.masked
  have quiet : deliver p.syncEip = .none p.syncEip := by
    rw [deliver, masked]
    rfl
  have found : p.syncEip.instructionAt? p.syncEip.nextInstruction = _ := found
  have same : (Processor.step false p).2 = p.syncEip.syncEip := by
    rw [Processor.step, quiet]
    unfold stepInstruction
    simp only [found]
    rfl
  rw [same]
  exact spins.syncEip.syncEip

theorem Spins.lifetime_eq {p : Processor δ} (spins : p.Spins) (clock : Nat → Reading) :
    lifetime clock p = ⊤ := by
  have always (n : Nat) : (stateAfter clock p n).Spins := by
    induction n with
    | zero => exact spins
    | succ n ih => exact (ih.atTime (clock n)).step
  exact ENat.eq_top_iff_forall_gt.mpr fun n => lt_lifetime_iff.mpr fun i _ => (always i).canContinue

end Processor

end ReducedX86
