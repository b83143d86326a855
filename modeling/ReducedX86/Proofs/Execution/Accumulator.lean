import ReducedX86.Proofs.Execution.Operands

/-!
The accumulator pair.

Multiplication and division work at twice the width of their operand, on a number that lies in the
two halves of the accumulator. Every number of the double range that is stored there is found there
again.
-/
namespace ReducedX86

namespace Word

variable {signed : Bool} {size : Nat} {u v : Int} {w w' : Word}

/-- The number that a word of a width stands for, read with or without signs. -/
def number (signed : Bool) (w : Word) (size : Nat) : Int :=
  if signed then w.signed size else w.toNat

/-- The integer is in the range of the width. -/
def Fits (signed : Bool) (v : Int) (size : Nat) : Prop :=
  if signed then FitsSigned v size else FitsUnsigned v size

instance : Decidable (Fits signed v size) := by
  unfold Fits
  infer_instance

theorem number_zero (signed : Bool) (size : Nat) : number signed 0 size = 0 := by
  cases signed with
  | false => rfl
  | true => exact signed_zero size

theorem fits_number (small : w.toNat < modulus size) : Fits signed (w.number signed size) size := by
  cases signed with
  | false => exact ⟨Int.natCast_nonneg _, Int.ofNat_lt.mpr small⟩
  | true => exact fitsSigned_signed w size

theorem number_truncate_ofInt (fits : Fits signed v size) :
    ((ofInt v).truncate size).number signed size = v := by
  cases signed with
  | false => exact (toNat_truncate_ofInt v size).trans (Int.emod_eq_of_lt fits.1 fits.2)
  | true => exact signed_truncate_ofInt fits

theorem number_injective (small : w.toNat < modulus size) (small' : w'.toNat < modulus size)
    (same : w.number signed size = w'.number signed size) : w = w' := by
  cases signed with
  | false => exact UInt32.toNat_inj.mp (Int.natCast_inj.mp same)
  | true => exact signed_injective small small' same

theorem number_eq_zero_iff (small : w.toNat < modulus size) : w.number signed size = 0 ↔ w = 0 := by
  refine ⟨fun zero => ?_, fun zero => zero ▸ number_zero signed size⟩
  have positive : (0 : Word).toNat < modulus size := Nat.zero_lt_of_lt small
  exact number_injective small positive (zero.trans (number_zero signed size).symm)

/-- The number that stands in twice the width for `n`. -/
def doubleNumber (signed : Bool) (n size : Nat) : Int :=
  if signed then twosComplement n (modulus size * modulus size) else n

/-- The integer is in the range of twice the width. -/
def FitsTwice (signed : Bool) (v : Int) (size : Nat) : Prop :=
  let square := modulus size * modulus size
  if signed then -(square : Int) ≤ 2 * v ∧ 2 * v < square else 0 ≤ v ∧ v < square

theorem natAbs_mul_le {n : Nat} (bound : u.natAbs ≤ n) (bound' : v.natAbs ≤ n) :
    (u * v).natAbs ≤ n * n := by
  rw [Int.natAbs_mul]
  exact Nat.mul_le_mul bound bound'

theorem fitsTwice_mul (fits : Fits signed u size) (fits' : Fits signed v size) :
    FitsTwice signed (u * v) size := by
  cases signed with
  | false =>
      obtain ⟨lower, upper⟩ := fits
      obtain ⟨lower', upper'⟩ := fits'
      have bound : (u * v).natAbs ≤ (modulus size - 1) * (modulus size - 1) :=
        natAbs_mul_le (by omega) (by omega)
      refine ⟨Int.mul_nonneg lower lower', ?_⟩
      rcases width_cases size with ⟨-, h⟩ | ⟨-, h⟩ | ⟨-, h⟩ <;> rw [h] at bound ⊢ <;> omega
  | true =>
      obtain ⟨lower, upper⟩ := fits
      obtain ⟨lower', upper'⟩ := fits'
      have bound : (u * v).natAbs ≤ (modulus size / 2) * (modulus size / 2) :=
        natAbs_mul_le (by omega) (by omega)
      simp only [FitsTwice, if_true]
      rcases width_cases size with ⟨-, h⟩ | ⟨-, h⟩ | ⟨-, h⟩ <;> rw [h] at bound ⊢ <;> omega

theorem twosComplement_emod {n : Nat} (even : 2 ∣ n) (lower : -(n : Int) ≤ 2 * v)
    (upper : 2 * v < n) : twosComplement (v % n).toNat n = v := by
  unfold twosComplement
  rcases Int.lt_or_le v 0 with negative | nonnegative
  · have wraps : v % n = v + n := by
      rw [← Int.add_emod_right, Int.emod_eq_of_lt (by omega) (by omega)]
    rw [wraps]
    split <;> omega
  · rw [Int.emod_eq_of_lt nonnegative (by omega)]
    split <;> omega

theorem doubleNumber_emod (fits : FitsTwice signed v size) {n : Nat}
    (stored : (n : Int) = v % (modulus size * modulus size : Nat)) :
    doubleNumber signed n size = v := by
  cases signed with
  | false => exact stored.trans (Int.emod_eq_of_lt fits.1 fits.2)
  | true =>
      have even : 2 ∣ modulus size * modulus size := Dvd.dvd.mul_right (two_dvd_modulus size) _
      rw [← Int.toNat_natCast n, stored]
      exact twosComplement_emod even fits.1 fits.2

/-- Two halves make the number modulo the double width. -/
theorem halves_add (v : Int) (size : Nat) :
    v / modulus size % modulus size * modulus size + v % modulus size =
      v % (modulus size * modulus size : Nat) := by
  rcases width_cases size with ⟨-, h⟩ | ⟨-, h⟩ | ⟨-, h⟩ <;> rw [h] <;> omega

end Word

namespace Execution

theorem mask_accumulator :
    ∀ size : Nat, Word.mask (Register.accumulator size).size = Word.mask size
  | 0 | 1 | 2 | _ + 3 => rfl

theorem mask_highHalf : ∀ size : Nat, Word.mask (highHalf size).size = Word.mask size
  | 0 | 1 | 2 | _ + 3 => rfl

theorem apart_halves : ∀ size : Nat, (highHalf size).Apart (.accumulator size)
  | 1 => (by decide : Register.Apart .ah .al)
  | 2 => (by decide : Register.Apart .dx .ax)
  | 0 | _ + 3 => (by decide : Register.Apart .edx .eax)

end Execution

namespace Processor

variable {δ : Type} {p : Processor δ} {signed : Bool} {size : Nat}

open Execution

/-- What the halves of the accumulator hold together. -/
def pair (p : Processor δ) (size : Nat) : Nat :=
  (p.reg (highHalf size)).toNat * Word.modulus size + (p.reg (.accumulator size)).toNat

/-- The number in both halves of the accumulator. -/
def pairNumber (signed : Bool) (p : Processor δ) (size : Nat) : Int :=
  Word.doubleNumber signed (p.pair size) size

/-- The number in the low half of the accumulator. -/
def lowNumber (signed : Bool) (p : Processor δ) (size : Nat) : Int :=
  (p.reg (.accumulator size)).number signed size

/-- The number in the high half of the accumulator. -/
def highNumber (signed : Bool) (p : Processor δ) (size : Nat) : Int :=
  (p.reg (highHalf size)).number signed size

theorem toNat_reg_accumulator_lt : ∀ size : Nat,
    (p.reg (.accumulator size)).toNat < Word.modulus size
  | 1 => toNat_valueOf_lt (o := .register .al) rfl
  | 2 => toNat_valueOf_lt (o := .register .ax) rfl
  | 0 | _ + 3 => UInt32.toNat_lt _

def withHalves (p : Processor δ) (size : Nat) (low high : Int) : Processor δ :=
  (p.setReg (.accumulator size) (Word.ofInt low)).setReg (highHalf size) (Word.ofInt high)

theorem reg_accumulator_withHalves (low high : Int) :
    (p.withHalves size low high).reg (.accumulator size) = (Word.ofInt low).truncate size := by
  have kept := RegisterFile.get_set_of_apart
    (p.registers.set (.accumulator size) (Word.ofInt low)) (apart_halves size) (Word.ofInt high)
  refine kept.trans ((RegisterFile.get_set_self ..).trans ?_)
  rw [Word.truncate, mask_accumulator, Word.truncate]

theorem reg_highHalf_withHalves (low high : Int) :
    (p.withHalves size low high).reg (highHalf size) = (Word.ofInt high).truncate size := by
  refine (RegisterFile.get_set_self ..).trans ?_
  rw [Word.truncate, mask_highHalf, Word.truncate]

theorem pairNumber_withHalves {v : Int} (fits : Word.FitsTwice signed v size) :
    (p.withHalves size v (v / Word.modulus size)).pairNumber signed size = v := by
  refine Word.doubleNumber_emod fits ?_
  rw [pair, reg_accumulator_withHalves, reg_highHalf_withHalves, Int.natCast_add, Int.natCast_mul,
    Word.toNat_truncate_ofInt, Word.toNat_truncate_ofInt, Word.halves_add]

end Processor

namespace Execution

variable {δ : Type} {p : Processor δ} {failed : Fault → Processor δ → Prop}

@[simp] theorem outcome_dividend {done : Nat → Processor δ → Prop} (size : Nat) :
    Outcome (dividend size) done failed p ↔ done (p.pair size) p := Iff.rfl

@[simp] theorem outcome_setHalves {done : Unit → Processor δ → Prop} (size : Nat)
    (low high : Int) :
    Outcome (setHalves size low high) done failed p ↔ done () (p.withHalves size low high) :=
  Iff.rfl

end Execution

end ReducedX86
