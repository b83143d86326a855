import ReducedX86.Word

/-!
Settings of a machine, and which of them are acceptable.
-/
namespace ReducedX86

structure Settings where
  /-- bytes of data memory -/
  memorySize : Nat := 65536
  /-- how many milliseconds one batch of a run may take -/
  timeSlice : Nat := 5
  /-- instructions between two looks at the clock -/
  stepsPerCheck : Word := 100
  /-- how many milliseconds a run waits between two batches -/
  resumeDelay : Nat := 5
  /-- the timer interval after a reset -/
  timerInterval : Word := 100
  deriving DecidableEq, Repr, Inhabited

inductive SettingsError
  | invalidMemorySize (size : Nat)
  | invalidStepsPerCheck
  deriving DecidableEq, Repr, Inhabited

def SettingsError.message : SettingsError → String
  | invalidMemorySize size =>
      "memory size must be a power of 2 between 1 and 2^30, got " ++ toString size
  | invalidStepsPerCheck => "steps per check must be at least 1"

namespace Settings

/-- Memory sizes are the powers of two up to `2 ^ 30`. -/
def isMemorySize (size : Nat) : Bool := size == 1 <<< size.log2 && size ≤ 1 <<< 30

def validate (s : Settings) : Except SettingsError Unit :=
  if !isMemorySize s.memorySize then .error (.invalidMemorySize s.memorySize)
  else if s.stepsPerCheck = 0 then .error .invalidStepsPerCheck
  else .ok ()

theorem isMemorySize_iff (size : Nat) : isMemorySize size ↔ ∃ k ≤ 30, size = 1 <<< k := by
  constructor
  · intro h
    simp only [isMemorySize, Bool.and_eq_true, beq_iff_eq, decide_eq_true_eq,
      Nat.one_shiftLeft] at h
    refine ⟨size.log2, ?_, h.1.trans (Nat.one_shiftLeft _).symm⟩
    rw [h.1] at h
    exact (Nat.pow_le_pow_iff_right (by decide)).mp h.2
  · rintro ⟨k, hk, rfl⟩
    simp only [isMemorySize, Bool.and_eq_true, beq_iff_eq, decide_eq_true_eq,
      Nat.one_shiftLeft, Nat.log2_two_pow, true_and]
    exact Nat.pow_le_pow_right (by decide) hk

end Settings

end ReducedX86
