import ReducedX86.Device.Script
import ReducedX86.Proofs.Processor.Lifetime
import ReducedX86.Proofs.Register

/-!
Single-stepping and running.

A single step differs from a step of a run only when a request is delivered: it then ends in the
handler, with interrupts disabled. The next step of either kind delivers nothing, and is the rest of
the step of the run. So a run visits the states that single steps visit, apart from those right
after a delivery.
-/
namespace ReducedX86

-- Two processors are compared field by field; what is in the registers need not be looked into.
attribute [local irreducible] RegisterFile.set

namespace Processor

variable {δ : Type}

/-- The handler in which a single step ends, if it delivers a request. -/
def entered? (p : Processor δ) : Option (Processor δ) :=
  match deliver p.syncEip with
  | .entered q => some q
  | _ => none

theorem entered?_eq_some {p q : Processor δ} :
    p.entered? = some q ↔ deliver p.syncEip = .entered q := by
  rw [entered?]
  cases deliver p.syncEip <;> simp

theorem syncEip_syncEip (p : Processor δ) : p.syncEip.syncEip = p.syncEip := by
  simp only [syncEip, setReg, RegisterFile.set_set]

/-- In a handler that was just entered, no further request is delivered. -/
theorem deliver_of_entered {p q : Processor δ} (entered : deliver p = .entered q) :
    deliver q.syncEip = .none q := by
  have came := delivers p
  rw [entered] at came
  cases came with
  | @entered number rest q enabled queued ran =>
      rw [inHandler, syncEip_syncEip]
      have silent : Delivers (q.withFlags { q.flags with interrupt := false }).syncEip _ :=
        .idle (.inl rfl)
      exact silent.eq

theorem entered?_of_entered {p q : Processor δ} (entered : p.entered? = some q) :
    q.entered? = none := by
  rw [entered?, deliver_of_entered (entered?_eq_some.mp entered)]

/-- A delivery does not depend on the time. -/
theorem deliver_atTime (p : Processor δ) (now : Reading) :
    deliver (p.atTime now) = (deliver p).map (·.atTime now) :=
  deliver_disguised (f := fun s draws => ({ s with now }, draws))
    ⟨fun _ => rfl, fun _ _ => rfl, fun _ _ => rfl⟩ p

theorem entered?_atTime (p : Processor δ) (now : Reading) :
    (p.atTime now).entered? = p.entered?.map (·.atTime now) := by
  have same : (p.atTime now).syncEip = p.syncEip.atTime now := rfl
  rw [entered?, entered?, same, deliver_atTime]
  cases deliver p.syncEip <;> rfl

variable [PortDevice δ]

/-- Without a delivery, both kinds of steps do the same. -/
theorem step_eq_of_not_entered {p : Processor δ} (quiet : p.entered? = none) :
    step true p = step false p := by
  rw [step, step]
  rw [entered?] at quiet
  cases came : deliver p.syncEip with
  | entered q =>
      rw [came] at quiet
      cases quiet
  | none q | faulted q => rfl

/-- A delivery splits a step of a run in two. The second part may come at another time, and then
takes place as the whole step would. -/
theorem step_of_entered {p q : Processor δ} (entered : p.entered? = some q) :
    step true p = (true, q) ∧
      ∀ now stepping, step stepping (q.atTime now) = step false (p.atTime now) := by
  have delivered := entered?_eq_some.mp entered
  refine ⟨by rw [step, delivered]; rfl, fun now stepping => ?_⟩
  have later : deliver (p.atTime now).syncEip = .entered (q.atTime now) := by
    have same := entered?_atTime p now
    rw [entered] at same
    exact entered?_eq_some.mp same
  rw [step, step, deliver_of_entered later, later]
  rfl

/-- The processor after `j` steps; step `i` is a single step if `stepping i`, and is taken at the
time `clock i`. -/
def stepped (stepping : Nat → Bool) (clock : Nat → Reading) (p : Processor δ) : Nat → Processor δ
  | 0 => p
  | j + 1 => (step (stepping j) ((stepped stepping clock p j).atTime (clock j))).2

/-- The processor after `j` single steps. -/
abbrev watched (clock : Nat → Reading) (p : Processor δ) : Nat → Processor δ :=
  stepped (fun _ => true) clock p

theorem watched_succ (clock : Nat → Reading) (p : Processor δ) (j : Nat) :
    watched clock p (j + 1) = (step true ((watched clock p j).atTime (clock j))).2 := rfl

/-- What single step `j` delivers. -/
def delivery? (clock : Nat → Reading) (p : Processor δ) (j : Nat) : Option (Processor δ) :=
  ((watched clock p j).atTime (clock j)).entered?

/-- How many single steps are as much as `n` steps of a run. -/
def singleSteps (clock : Nat → Reading) (p : Processor δ) : Nat → Nat
  | 0 => 0
  | n + 1 =>
      let j := singleSteps clock p n
      if (delivery? clock p j).isSome then j + 2 else j + 1

section Watching

variable {clock : Nat → Reading} {p : Processor δ} {n j : Nat}

theorem singleSteps_succ_of_some (delivered : (delivery? clock p (singleSteps clock p n)).isSome) :
    singleSteps clock p (n + 1) = singleSteps clock p n + 2 :=
  if_pos delivered

theorem singleSteps_succ_of_none (quiet : delivery? clock p (singleSteps clock p n) = none) :
    singleSteps clock p (n + 1) = singleSteps clock p n + 1 := by
  rw [singleSteps, quiet]
  rfl

theorem singleSteps_strictMono (clock : Nat → Reading) (p : Processor δ) :
    StrictMono (singleSteps clock p) := by
  apply strictMono_nat_of_lt_succ
  intro n
  rw [singleSteps]
  split <;> omega

/-- No two single steps in a row deliver a request. -/
theorem delivery?_succ {q : Processor δ} (delivered : delivery? clock p j = some q) :
    delivery? clock p (j + 1) = none := by
  rw [delivery?, watched_succ, (step_of_entered delivered).1, entered?_atTime,
    entered?_of_entered delivered, Option.map_none]

/-- Each single step ends a step of the run, or delivers what the next one goes on from. -/
theorem singleSteps_or_delivery (clock : Nat → Reading) (p : Processor δ) (j : Nat) :
    (∃ n, singleSteps clock p n = j) ∨
      ∃ n, singleSteps clock p n + 1 = j ∧
        (delivery? clock p (singleSteps clock p n)).isSome := by
  induction j with
  | zero => exact .inl ⟨0, rfl⟩
  | succ j ih =>
      rcases ih with ⟨n, rfl⟩ | ⟨n, rfl, delivered⟩
      · cases came : delivery? clock p (singleSteps clock p n) with
        | none => exact .inl ⟨n + 1, singleSteps_succ_of_none came⟩
        | some q => exact .inr ⟨n, rfl, by rw [came]; rfl⟩
      · exact .inl ⟨n + 1, singleSteps_succ_of_some delivered⟩

/-- The states that a run passes over are those right after a delivery. -/
theorem not_mem_range_singleSteps :
    j ∉ Set.range (singleSteps clock p) ↔ ∃ i, j = i + 1 ∧ (delivery? clock p i).isSome := by
  constructor
  · intro passed
    rcases singleSteps_or_delivery clock p j with reached | ⟨n, rfl, delivered⟩
    · exact absurd reached passed
    · exact ⟨_, rfl, delivered⟩
  · rintro ⟨i, rfl, delivered⟩ ⟨m, reached⟩
    rcases singleSteps_or_delivery clock p i with ⟨n, rfl⟩ | ⟨n, rfl, before⟩
    · -- The run goes from `i` to `i + 2`.
      have next := singleSteps_succ_of_some delivered
      have after : n < m := (singleSteps_strictMono clock p).lt_iff_lt.mp (by omega)
      have upto : m < n + 1 := (singleSteps_strictMono clock p).lt_iff_lt.mp (by omega)
      omega
    · obtain ⟨q, came⟩ := Option.isSome_iff_exists.mp before
      rw [delivery?_succ came] at delivered
      cases delivered

/-- The run takes its steps when single steps execute their instructions. -/
theorem stateAfter_eq_watched (clock : Nat → Reading) (p : Processor δ) (n : Nat) :
    stateAfter (fun i => clock (singleSteps clock p (i + 1) - 1)) p n =
      watched clock p (singleSteps clock p n) := by
  induction n with
  | zero => rfl
  | succ n ih =>
      rw [stateAfter, ih]
      cases came : delivery? clock p (singleSteps clock p n) with
      | none =>
          rw [singleSteps_succ_of_none came, Nat.add_sub_cancel, watched_succ,
            step_eq_of_not_entered came]
      | some q =>
          have next := singleSteps_succ_of_some (n := n) (by rw [came]; rfl)
          obtain ⟨first, second⟩ := step_of_entered came
          rw [next, watched_succ, watched_succ, first, second]
          rfl

end Watching

/-- Running is single-stepping without the stops after deliveries. Without a delivery the two kinds
of steps do the same, also when the delivery faults; after one, the next step of either kind
completes what a step of the run does. So after `n` steps of a run the processor is where it is
after `singleSteps clock p n` single steps, and what single steps visit besides are the states right
after a delivery. Every instruction is executed at the same time on both ways. -/
theorem run_of_single_steps (clock : Nat → Reading) (p : Processor δ) :
    (p.entered? = none → step true p = step false p) ∧
    (∀ q, p.entered? = some q → step true p = (true, q) ∧
      ∀ now stepping, step stepping (q.atTime now) = step false (p.atTime now)) ∧
    StrictMono (singleSteps clock p) ∧
    (∀ n, stateAfter (fun i => clock (singleSteps clock p (i + 1) - 1)) p n =
      watched clock p (singleSteps clock p n)) ∧
    ∀ j, j ∉ Set.range (singleSteps clock p) ↔
      ∃ i, j = i + 1 ∧ (delivery? clock p i).isSome :=
  ⟨step_eq_of_not_entered, fun _ => step_of_entered, singleSteps_strictMono clock p,
    stateAfter_eq_watched clock p, fun _ => not_mem_range_singleSteps⟩

/-- With a request to deliver, the first step of the run is two single steps. -/
theorem run_of_single_steps_delivering :
    let fresh : Processor Script := (Processor.new 64 {} default).load #[{ op := .system .nop }]
    let p := { fresh with
      handlerTable := 896, flags := { interrupt := true }, interruptQueue := [32] }
    let now : Reading := { instant := 5 }
    ∃ q, p.entered? = some q ∧ step true p = (true, q) ∧
      step true (q.atTime now) = step false (p.atTime now) ∧
      stateAfter (fun _ => now) p 1 = watched (fun _ => now) p 2 := by
  intro fresh p now
  have delivers : p.entered?.isSome := by decide +kernel
  have twice : singleSteps (fun _ => now) p 1 = 2 := by decide +kernel
  obtain ⟨q, entered⟩ := Option.isSome_iff_exists.mp delivers
  obtain ⟨-, split, -, visits, -⟩ := run_of_single_steps (fun _ => now) p
  obtain ⟨first, second⟩ := split q entered
  have visited := visits 1
  rw [twice] at visited
  exact ⟨q, entered, first, second now true, visited⟩

end Processor

end ReducedX86
