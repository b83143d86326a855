import Mathlib.Data.Fintype.Basic
import Mathlib.Data.List.Sort
import Mathlib.Data.Prod.Lex
import ReducedX86.Proofs.Device.Timers

/-!
In which order a board reports its timers.

Timers that are due at one look went off at their deadlines, one after the other; this is their
firing order. A look reports them by number. The two orders agree exactly if no timer is due that has
an earlier deadline than one with a lower number, so always for a host that looks at every deadline.
-/
namespace ReducedX86.Board

/-- When a timer goes off; at one time the lower number comes first. -/
def moment (b : Board) (i : Fin 4) : ℕ ×ₗ Fin 4 := toLex ((b.deadline i).getD 0, i)

/-- The timers that are due, in the order of their deadlines. -/
def firing (b : Board) (now : Time) : List (Fin 4) :=
  ((List.finRange 4).filter (b.isDue now)).insertionSort (Order.Preimage b.moment (· ≤ ·))

variable {b : Board} {now : Time}

theorem moment_le_iff {i j : Fin 4} {d e : Time} (first : b.deadline i = some d)
    (second : b.deadline j = some e) : b.moment i ≤ b.moment j ↔ d < e ∨ d = e ∧ i ≤ j := by
  simp only [moment, first, second, Prod.Lex.le_iff, ofLex_toLex, Option.getD_some]

theorem moment_injective {i j : Fin 4} (same : b.moment i = b.moment j) : i = j :=
  congrArg (fun moment => (ofLex moment).2) same

theorem perm_firing : ((List.finRange 4).filter (b.isDue now)).Perm (b.firing now) :=
  (List.perm_insertionSort ..).symm

theorem pairwise_firing : (b.firing now).Pairwise fun i j => b.moment i ≤ b.moment j :=
  List.pairwise_insertionSort (Order.Preimage b.moment (· ≤ ·)) _

theorem poll_eq : (b.poll now).1 = ((List.finRange 4).filter (b.isDue now)).map interruptOf := rfl

/-- Among the timers that are due no higher number has an earlier deadline. -/
def Ascending (b : Board) (now : Time) : Prop :=
  ∀ i j, i < j → ∀ d e, b.deadline i = some d → b.deadline j = some e → d ≤ now → e ≤ now → d ≤ e

theorem ascending_iff :
    b.Ascending now ↔ ((List.finRange 4).filter (b.isDue now)).Pairwise
      fun i j => b.moment i ≤ b.moment j := by
  constructor
  · intro ascending
    have ordered : ((List.finRange 4).filter (b.isDue now)).Pairwise (· < ·) :=
      (List.pairwise_lt_finRange 4).filter _
    refine ordered.imp_of_mem fun {i j} first second before => ?_
    obtain ⟨d, armed, past⟩ := isDue_iff.mp (List.mem_filter.mp first).2
    obtain ⟨e, armed', past'⟩ := isDue_iff.mp (List.mem_filter.mp second).2
    rw [moment_le_iff armed armed']
    have le := ascending i j before d e armed armed' past past'
    exact (Nat.lt_or_eq_of_le le).imp_right fun same => ⟨same, Fin.le_of_lt before⟩
  · intro sorted i j before d e armed armed' past past'
    have numbered : ∀ i j : Fin 4, i < j → [i, j].Sublist (List.finRange 4) := by decide
    have listed := (numbered i j before).filter (b.isDue now)
    have due : ∀ k ∈ [i, j], b.isDue now k := by
      rintro k (_ | ⟨_, _ | ⟨_, ⟨⟩⟩⟩)
      · exact isDue_iff.mpr ⟨d, armed, past⟩
      · exact isDue_iff.mpr ⟨e, armed', past'⟩
    rw [List.filter_eq_self.mpr due] at listed
    have le := List.pairwise_iff_forall_sublist.mp sorted listed
    rw [moment_le_iff armed armed'] at le
    exact le.elim Nat.le_of_lt fun same => Nat.le_of_eq same.1

theorem perm_poll : (b.poll now).1.Perm ((b.firing now).map interruptOf) :=
  perm_firing.map interruptOf

theorem poll_eq_firing_iff : (b.poll now).1 = (b.firing now).map interruptOf ↔ b.Ascending now := by
  rw [ascending_iff, poll_eq]
  constructor
  · intro same
    rw [List.map_injective_iff.mpr interruptOf_injective same]
    exact pairwise_firing
  · intro sorted
    refine congrArg (List.map interruptOf) ?_
    exact perm_firing.eq_of_pairwise
      (fun i j _ _ le ge => moment_injective (le_antisymm le ge)) sorted pairwise_firing

/-- At its next deadline a board has no two due timers with different deadlines. -/
theorem ascending_of_nextDeadline (next : b.nextDeadline = some now) : b.Ascending now := by
  intro i j _ d e _ armed past _
  rw [nextDeadline_eq, List.min?_eq_some_iff] at next
  have earliest : now ≤ e := next.2 e (mem_deadlines_iff.mpr ⟨j, armed⟩)
  exact Nat.le_trans past earliest

/-- A look reports the timers that are due, each once, by their numbers. These are in firing order
exactly if no higher number has an earlier deadline, as at the next deadline itself. -/
theorem polled_by_number (interval : Word) (wall : Nat) (history : List Event) (now : Time) :
    let b := (powerOn interval wall).afterAll history
    let polled := (PortDevice.poll b now).1
    polled.Perm ((b.firing now).map interruptOf) ∧
    polled.Pairwise (· < ·) ∧
    (polled = (b.firing now).map interruptOf ↔ b.Ascending now) ∧
    (PortDevice.nextDeadline b = some now → polled = (b.firing now).map interruptOf) := by
  intro b polled
  refine ⟨perm_poll, pairwise_poll now, poll_eq_firing_iff, fun next => ?_⟩
  exact poll_eq_firing_iff.mpr (ascending_of_nextDeadline next)

-- Timer 0 goes off at 20 s, timer 1 at 10 s; a look at 30 s reports timer 0 first.
example :
    let b := (powerOn 100000 0).afterAll
      [.output {} 4 .dword 20000, .output {} 8 .byte 1, .output {} 4 .dword 10000,
        .output {} 9 .byte 1]
    b.deadline 0 = some (milliseconds 20000) ∧ b.deadline 1 = some (milliseconds 10000) ∧
    (PortDevice.poll b (milliseconds 30000)).1 = [0x20, 0x21] ∧
    (b.firing (milliseconds 30000)).map interruptOf = [0x21, 0x20] := by
  decide +kernel

end ReducedX86.Board
