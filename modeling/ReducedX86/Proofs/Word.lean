import Mathlib.Data.Nat.Bitwise
import ReducedX86.Memory
import ReducedX86.Word

/-!
The numbers of a width.

A word that is cut to a width has one of `Word.modulus` values. Read as two's complement, the upper
half of them stands for the negative numbers; every integer of that range is the value of the
word that holds it.
-/
namespace ReducedX86.Word

theorem modulus_eq_two_pow (size : Nat) : modulus size = 2 ^ bits size := by
  rw [modulus_eq, Nat.one_shiftLeft]

/-- There are three widths. -/
theorem width_cases (size : Nat) :
    (bits size = 8 ∧ modulus size = 0x100) ∨ (bits size = 16 ∧ modulus size = 0x10000) ∨
      (bits size = 32 ∧ modulus size = 0x100000000) := by
  unfold bits modulus
  split <;> simp

theorem modulus_of_accessSize {size : Nat} (access : Memory.isAccessSize size) :
    modulus size = 1 <<< (8 * size) := by
  simp only [Memory.isAccessSize, Bool.or_eq_true, beq_iff_eq] at access
  rcases access with (rfl | rfl) | rfl <;> rfl

theorem modulus_le (size : Nat) : modulus size ≤ 0x100000000 := by
  rcases width_cases size with ⟨-, h⟩ | ⟨-, h⟩ | ⟨-, h⟩ <;> rw [h] <;> decide

/-- A sum that is not below its second summand has not wrapped. -/
theorem toNat_add_of_le {w k : Word} (low : k.toNat ≤ (w + k).toNat) :
    (w + k).toNat = w.toNat + k.toNat := by
  rw [UInt32.toNat_add] at low ⊢
  have := w.toNat_lt
  omega

/-- A difference to which `n` can be added again is exact. -/
theorem toNat_of_sub {w : Word} {n : Nat}
    (small : (w - UInt32.ofNat n).toNat + n < 0x100000000) :
    w.toNat = (w - UInt32.ofNat n).toNat + n := by
  have whole := w.toNat_lt
  rw [UInt32.toNat_sub, UInt32.toNat_ofNat'] at small ⊢
  omega

theorem truncate_of_lt {w : Word} {size : Nat} (small : w.toNat < modulus size) :
    w.truncate size = w := by
  apply UInt32.toNat_inj.mp
  rw [toNat_truncate, Nat.mod_eq_of_lt small]

theorem toNat_truncate_lt (w : Word) (size : Nat) : (w.truncate size).toNat < modulus size := by
  have positive := width_cases size
  rw [toNat_truncate]
  exact Nat.mod_lt _ (by omega)

theorem toNat_truncate_ofNat (x size : Nat) :
    (truncate (UInt32.ofNat x) size).toNat = x % modulus size := by
  rw [toNat_truncate, UInt32.toNat_ofNat']
  rcases width_cases size with ⟨-, h⟩ | ⟨-, h⟩ | ⟨-, h⟩ <;> rw [h] <;> omega

theorem one_lt_modulus (size : Nat) : 1 < modulus size := by
  rcases width_cases size with ⟨-, h⟩ | ⟨-, h⟩ | ⟨-, h⟩ <;> rw [h] <;> decide

theorem two_dvd_modulus (size : Nat) : 2 ∣ modulus size := by
  rcases width_cases size with ⟨-, h⟩ | ⟨-, h⟩ | ⟨-, h⟩ <;> rw [h] <;> decide

theorem toNat_truncate_ofInt (v : Int) (size : Nat) :
    (((ofInt v).truncate size).toNat : Int) = v % modulus size := by
  rw [toNat_truncate, toNat_ofInt]
  rcases width_cases size with ⟨-, h⟩ | ⟨-, h⟩ | ⟨-, h⟩ <;> rw [h] <;> omega

theorem ofInt_natCast (n : Nat) : ofInt n = UInt32.ofNat n := by
  apply UInt32.toNat_inj.mp
  rw [toNat_ofInt, UInt32.toNat_ofNat']
  omega

theorem ofInt_toNat (w : Word) : ofInt w.toNat = w := by
  rw [ofInt_natCast, UInt32.ofNat_toNat]

theorem ofInt_add (u v : Int) : ofInt (u + v) = ofInt u + ofInt v := by
  apply UInt32.toNat_inj.mp
  rw [UInt32.toNat_add, toNat_ofInt, toNat_ofInt, toNat_ofInt]
  omega

theorem ofInt_sub (u v : Int) : ofInt (u - v) = ofInt u - ofInt v := by
  apply UInt32.toNat_inj.mp
  rw [UInt32.toNat_sub, toNat_ofInt, toNat_ofInt, toNat_ofInt]
  omega

/-- The integer is in the unsigned range of the width. -/
def FitsUnsigned (v : Int) (size : Nat) : Prop := 0 ≤ v ∧ v < (modulus size : Int)

/-- The integer is in the signed range of the width. -/
def FitsSigned (v : Int) (size : Nat) : Prop :=
  -(modulus size : Int) ≤ 2 * v ∧ 2 * v < (modulus size : Int)

instance (v : Int) (size : Nat) : Decidable (FitsUnsigned v size) :=
  inferInstanceAs (Decidable (_ ∧ _))

instance (v : Int) (size : Nat) : Decidable (FitsSigned v size) :=
  inferInstanceAs (Decidable (_ ∧ _))

theorem fitsSigned_signed (w : Word) (size : Nat) : FitsSigned (w.signed size) size := by
  rw [FitsSigned, signed, twosComplement]
  rcases width_cases size with ⟨-, h⟩ | ⟨-, h⟩ | ⟨-, h⟩ <;> rw [h] <;> split <;> omega

/-- A word of a width holds every integer of the signed range. -/
theorem signed_truncate_ofInt {v : Int} {size : Nat} (fits : FitsSigned v size) :
    ((ofInt v).truncate size).signed size = v := by
  rw [FitsSigned] at fits
  rw [signed, twosComplement, toNat_truncate, toNat_ofInt]
  rcases width_cases size with ⟨-, h⟩ | ⟨-, h⟩ | ⟨-, h⟩ <;> rw [h] at fits ⊢ <;> split <;> omega

theorem signed_of_lt {w : Word} {size : Nat} (small : w.toNat < modulus size) :
    w.signed size = if 2 * w.toNat < modulus size then (w.toNat : Int)
      else (w.toNat : Int) - (modulus size : Int) := by
  rw [signed, twosComplement, Nat.mod_eq_of_lt small]
  rcases width_cases size with ⟨-, h⟩ | ⟨-, h⟩ | ⟨-, h⟩ <;> rw [h] <;> split <;> split <;> omega

theorem signed_zero (size : Nat) : signed 0 size = 0 := by
  have positive := one_lt_modulus size
  rw [signed_of_lt (by rw [UInt32.toNat_zero]; omega), UInt32.toNat_zero, if_pos (by omega)]
  rfl

theorem signed_one (size : Nat) : signed 1 size = 1 := by
  have one : (1 : Word).toNat = 1 := rfl
  rcases width_cases size with ⟨-, h⟩ | ⟨-, h⟩ | ⟨-, h⟩ <;>
    rw [signed, twosComplement, one, h] <;> rfl

theorem signed_injective {v w : Word} {size : Nat} (small : v.toNat < modulus size)
    (small' : w.toNat < modulus size) (same : v.signed size = w.signed size) : v = w := by
  apply UInt32.toNat_inj.mp
  rw [signed_of_lt small, signed_of_lt small'] at same
  split at same <;> split at same <;> omega

theorem toNat_signBit (size : Nat) : (signBit size).toNat = 2 ^ (bits size - 1) := by
  unfold signBit bits
  split <;> rfl

/-- The top bit of a width is set in the upper half of its values. -/
theorem negative_of_lt {w : Word} {size : Nat} (small : w.toNat < modulus size) :
    w.negative size = decide (modulus size ≤ 2 * w.toNat) := by
  have top : w.negative size = true ↔ w.toNat &&& 2 ^ (bits size - 1) ≠ 0 := by
    rw [negative, bne_iff_ne, ne_eq, ← UInt32.toNat_inj, UInt32.toNat_and, toNat_signBit]
    rfl
  rw [Bool.eq_iff_iff, top, Nat.and_two_pow, Nat.testBit_eq_decide_div_mod_eq, decide_eq_true_iff]
  rcases width_cases size with ⟨hb, hm⟩ | ⟨hb, hm⟩ | ⟨hb, hm⟩ <;> rw [hm] at small ⊢ <;>
    simp only [hb, ne_eq, Nat.mul_eq_zero, Bool.toNat_eq_zero, decide_eq_false_iff_not] <;> omega

theorem negative_iff_signed {w : Word} {size : Nat} (small : w.toNat < modulus size) :
    w.negative size ↔ w.signed size < 0 := by
  rw [negative_of_lt small, decide_eq_true_iff, signed_of_lt small]
  split <;> omega

theorem getD_bytes (value : Word) (i : Nat) : value.bytes.getD i 0 = value.byte i := by
  match i with
  | 0 | 1 | 2 | 3 => rfl
  | i + 4 =>
      have small := value.toNat_lt
      have shifted : value.toNat >>> (8 * (i + 4)) = 0 := by
        rw [Nat.shiftRight_eq_div_pow]
        refine Nat.div_eq_of_lt (Nat.lt_of_lt_of_le small ?_)
        exact Nat.pow_le_pow_right (by decide) (by omega)
      rw [byte, shifted]
      rfl

end ReducedX86.Word
