import ReducedX86.Proofs.Machine.Reachable

/-!
The loop of a batch.

A turn of the loop ends the run, or pauses it, or takes one step, after which a reset may end the
batch. `Turned` has one rule for each of these. What they preserve, a batch preserves however many
turns it takes and whether or not it is over within the patience of its host.
-/
namespace ReducedX86.Machine

variable {δ : Type}

/-- A step to be taken: whether it is a single one, and from where. -/
abbrev Stepping (δ : Type) := Bool × Processor δ

/-- The machine after looks at the clock. -/
def shown (m : Machine δ) (now : Reading) (clock : Feed Reading) : Machine δ :=
  { m with processor := { m.processor with now }, clock }

/-- The batch goes on from the same machine, but for the looks at the clock. -/
theorem look_shown {started : Time} {count count' : Word} {m m' : Machine δ}
    (found : m.look started count = some (count', m')) :
    ∃ now clock, m'.tock = m.shown now clock := by
  rw [look] at found
  split at found
  · cases found
    exact ⟨_, _, rfl⟩
  · simp only at found
    split at found
    · cases found
    · cases found
      exact ⟨_, _, rfl⟩

variable [PortDevice δ]

/-- The step that a turn takes, if it takes one. -/
def turnSteps (started : Time) (count : Word) (m : Machine δ) : List (Stepping δ) :=
  if !m.processor.canContinue then []
  else match m.look started count with
    | none => []
    | some (_, m') => [(false, m'.tock.processor)]

/-- Faults of the step from `m` are told to observers, who are `observers` afterwards. -/
def Reports (m : Machine δ) (observers : Observers) : Prop :=
  { m with processor := (m.processor.step false).2 }.reportFaults =
    m.advanced false m.running observers

/-- What a turn comes to, with the step that it takes. -/
inductive Turned (m : Machine δ) : Turn δ → List (Stepping δ) → Prop
  | ended (rests : m.processor.canContinue = false) : Turned m (.finished m.finishRun) []
  | paused (going : m.processor.canContinue) (now : Reading) (clock : Feed Reading)
      (resumeAt : Time) :
      Turned m (.finished { m.shown now clock with resumeAt := some resumeAt }) []
  | reset (going : m.processor.canContinue) (now : Reading) (clock : Feed Reading)
      (observers : Observers) (told : (m.shown now clock).Reports observers) {m' : Machine δ}
      (asked : ((m.shown now clock).advanced false m.running observers).takeResetRequest =
        (true, m')) :
      Turned m (.finished m') [(false, (m.shown now clock).processor)]
  | stepped (going : m.processor.canContinue) (now : Reading) (clock : Feed Reading)
      (observers : Observers) (told : (m.shown now clock).Reports observers) (count : Word)
      {m' : Machine δ}
      (unasked : ((m.shown now clock).advanced false m.running observers).takeResetRequest =
        (false, m')) :
      Turned m (.next count m') [(false, (m.shown now clock).processor)]

theorem turned (started : Time) (count : Word) (m : Machine δ) :
    Turned m (m.turn started count) (m.turnSteps started count) := by
  rw [turn, turnSteps]
  cases going : m.processor.canContinue with
  | false => exact .ended going
  | true =>
      simp only [Bool.not_true, Bool.false_eq_true, ↓reduceIte]
      cases found : m.look started count with
      | none => exact .paused going _ _ _
      | some next =>
          obtain ⟨count', m'⟩ := next
          obtain ⟨now, clock, shown⟩ := look_shown found
          obtain ⟨observers, told⟩ := reportFaults_advanced (m.shown now clock) false
          simp only [shown, takeStep, told]
          rcases taken : Machine.takeResetRequest _ with ⟨asked, m''⟩
          cases asked with
          | true => exact .reset going now clock observers told taken
          | false => exact .stepped going now clock observers told count' taken

/-- The steps of at most so many turns. -/
def loopSteps (started : Time) : (turns : Nat) → (count : Word) → Machine δ → List (Stepping δ)
  | 0, _, _ => []
  | turns + 1, count, m =>
      m.turnSteps started count ++ match m.turn started count with
        | .finished _ => []
        | .next count' m' => loopSteps started turns count' m'

/-- What holds of every run of turns that is broken off, and outlasts one more turn at the start,
holds of the loop: of its start, its steps, and its end if it has one. -/
theorem loop_induction {P : Machine δ → List (Stepping δ) → Option (Machine δ) → Prop}
    (broken : ∀ m, P m [] none)
    (finished : ∀ {m m' steps}, Turned m (.finished m') steps → P m steps (some m'))
    (next : ∀ {m count m' steps more result}, Turned m (.next count m') steps → P m' more result →
      P m (steps ++ more) result)
    (started : Time) (turns : Nat) (count : Word) (m : Machine δ) :
    P m (loopSteps started turns count m) (runTurns started turns count m) := by
  induction turns generalizing count m with
  | zero => exact broken m
  | succ turns ih =>
      have turned := turned started count m
      rw [loopSteps, runTurns]
      cases took : m.turn started count with
      | finished m' =>
          rw [took] at turned
          rw [List.append_nil]
          exact finished turned
      | next count' m' =>
          rw [took] at turned
          exact next turned (ih count' m')

/-- The steps of a batch, as far as its host is patient. -/
def batch (m : Machine δ) : List (Stepping δ) :=
  loopSteps m.launched.processor.now.instant m.patience 0 m.launched

/-- More patience changes nothing about a batch that is over. -/
theorem runTurns_of_le {started : Time} {turns more : Nat} {count : Word} {m m' : Machine δ}
    (finished : runTurns started turns count m = some m') (enough : turns ≤ more) :
    runTurns started more count m = some m' := by
  induction turns generalizing more count m with
  | zero => cases finished
  | succ turns ih =>
      obtain ⟨rest, rfl⟩ := Nat.exists_eq_add_of_le' enough
      rw [← Nat.add_assoc, runTurns]
      rw [runTurns] at finished
      cases took : m.turn started count with
      | finished last =>
          rw [took] at finished
          exact finished
      | next count' m'' =>
          rw [took] at finished
          exact ih finished (Nat.le_add_left turns rest)

end ReducedX86.Machine
