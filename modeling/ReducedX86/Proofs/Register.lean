import ReducedX86.Register
import ReducedX86.Proofs.Bytes

/-!
Registers that lie apart do not disturb each other, and a store in a register covers its parts.
-/
namespace ReducedX86

namespace Register

/-- The registers have no byte in common. -/
def Apart (r s : Register) : Prop := r.offset + r.size ≤ s.offset ∨ s.offset + s.size ≤ r.offset

instance (r s : Register) : Decidable (Apart r s) := by
  unfold Apart
  infer_instance

theorem mem_all (r : Register) : r ∈ all := by
  cases r <;> decide

/-- Registers of one width do not overlap. -/
theorem eq_or_apart {r s : Register} (same : r.size = s.size) : r = s ∨ r.Apart s := by
  have every : ∀ r ∈ all, ∀ s ∈ all, r.size = s.size → r = s ∨ r.Apart s := by decide +kernel
  exact every r (mem_all r) s (mem_all s) same

theorem Apart.symm {r s : Register} (apart : Apart r s) : Apart s r := Or.symm apart

theorem apart_eip {r : Register} (other : r ≠ .eip) : Apart r .eip := by
  cases r with
  | eip => exact absurd rfl other
  | _ => decide

theorem apart_esp {r : Register} (whole : r ≠ .esp) (half : r ≠ .sp) : Apart .esp r := by
  cases r with
  | esp => exact absurd rfl whole
  | sp => exact absurd rfl half
  | _ => decide

/-- The first register is a part of the second, or the same. -/
def Within (r s : Register) : Prop := s.offset ≤ r.offset ∧ r.offset + r.size ≤ s.offset + s.size

instance (r s : Register) : Decidable (Within r s) := by
  unfold Within
  infer_instance

/-- What is not apart from `esp` is `esp` or its lower half. -/
theorem within_esp {r : Register} (meets : ¬ Apart .esp r) : Within r .esp := by
  cases r with
  | esp | sp => decide
  | _ => exact absurd (by decide) meets

end Register

namespace RegisterFile

variable (f : RegisterFile)

theorem get_set_self (r : Register) (value : Word) :
    (f.set r value).get r = value.truncate r.size := by
  apply UInt32.toNat_inj.mp
  have inside : r.offset + r.size ≤ f.bytes.size := f.size_bytes ▸ r.offset_add_size_le
  have modulus : 1 <<< (8 * r.size) = Word.modulus r.size := by cases r <;> rfl
  have bound : Word.modulus r.size ≤ 0x100000000 := by cases r <;> decide
  have positive : 0 < Word.modulus r.size := by cases r <;> decide
  have small := Nat.mod_lt value.toNat positive
  rw [get, set, Bytes.load_store _ _ _ _ inside, modulus, Word.toNat_truncate, UInt32.toNat_ofNat']
  omega

theorem get_set_whole {r : Register} (whole : r.size = 4) (value : Word) :
    (f.set r value).get r = value := by
  rw [get_set_self, whole, Word.truncate_four]

theorem set_set_of_within {r s : Register} (part : r.Within s) (value other : Word) :
    (f.set r value).set s other = f.set s other := by
  simp only [set, Bytes.store_store_of_within _ _ _ part.1 part.2]

theorem set_set (r : Register) (value other : Word) :
    (f.set r value).set r other = f.set r other :=
  f.set_set_of_within ⟨Nat.le_refl _, Nat.le_refl _⟩ value other

theorem toNat_get (r : Register) : (f.get r).toNat = Bytes.load f.bytes r.offset r.size := by
  have bound : Bytes.load f.bytes r.offset r.size < 0x100000000 := by
    refine Nat.lt_of_lt_of_le (Bytes.load_lt ..) ?_
    cases r <;> decide
  rw [get, UInt32.toNat_ofNat', Nat.mod_eq_of_lt bound]

theorem set_get (r : Register) : f.set r (f.get r) = f := by
  rw [set]
  congr 1
  rw [toNat_get, Bytes.store_load]

/-- A register that gets its value back covers what its parts have received. -/
theorem set_restored_of_within {r s : Register} (part : r.Within s) (value other : Word) :
    ((f.set s other).set r value).set s (f.get s) = f := by
  rw [set_set_of_within _ part, set_set, set_get]

variable {r s : Register} (apart : r.Apart s)
include apart

theorem get_set_of_apart (value : Word) : (f.set r value).get s = f.get s := by
  rw [get, set, Bytes.load_store_of_apart _ _ _ _ _ _ apart, get]

theorem set_comm (value other : Word) :
    (f.set r value).set s other = (f.set s other).set r value := by
  simp only [set, Bytes.store_comm _ _ _ _ _ _ _ apart]

/-- A register that gets its value back leaves what others have received. -/
theorem set_restored_of_apart (value other : Word) :
    ((f.set r other).set s value).set r (f.get r) = f.set s value := by
  rw [set_comm f apart, set_set, ← get_set_of_apart f apart.symm value, set_get]

end RegisterFile

end ReducedX86
