import ReducedX86.Proofs.Machine.Consistency
import ReducedX86.Proofs.Machine.History
import ReducedX86.Proofs.Processor.FaultSite

/-!
A machine never steps a processor that waits for a transfer.

Every run and every single step starts only when nothing is pending, and a batch ends when a
transfer is left to the host. So whatever a host does with a machine, its processor is one that
comes about when none is stepped while a transfer waits.
-/
namespace ReducedX86

namespace Machine

variable {δ : Type} [PortDevice δ] {m m' : Machine δ}

/-- The processor of the machine came about without a step while a transfer waited. -/
def Patient (m : Machine δ) : Prop := m.processor.Reachable

theorem Patient.adjust (did : Adjusts m m') (h : m.Patient) : m'.Patient := by
  cases did with
  | told | attended | marked => exact h
  | edited | polled | asked => exact .touched h ⟨rfl, rfl, rfl⟩
  | resumed =>
      obtain ⟨fault, faultLog, control⟩ := Processor.control_resumeTransfer m.processor
      exact .free (congrArg Control.pendingTransfer control)
  | loaded => exact .free rfl
  | reset => exact .free (reset_idle m).pendingTransfer

theorem Patient.stepped (stepping : Bool) (free : m.processor.pendingTransfer = none) :
    (m.stepped stepping).Patient :=
  .touched (.step stepping free) ⟨rfl, rfl, rfl⟩

theorem Patient.of_path {steps : List (Stepping δ)} (path : Path m steps m') (h : m.Patient) :
    m'.Patient :=
  path.preserves h Patient.adjust fun stepping free _ _ => .stepped stepping free

theorem Reachable.patient (reachable : Reachable m) : m.Patient := by
  induction reachable with
  | new made =>
      obtain rfl := eq_of_new made
      exact .free rfl
  | call c _ returned ih => exact ih.of_path ((traces_perform c).of_some returned)
  | attended clock patience _ ih => exact ih

end Machine

end ReducedX86
