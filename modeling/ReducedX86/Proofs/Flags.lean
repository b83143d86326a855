import ReducedX86.Flags
import ReducedX86.Proofs.Word

/-!
What the flags tell of a result.

Sign and zero are read off the stored word. Overflow is found from three sign bits: of the operands
and of the word that was stored. Also with a carry or a borrow coming in it is set exactly when the
sum or difference of the signed operands leaves the signed range.
-/
namespace ReducedX86

namespace Flags

variable {size c : Nat} {x y r : Word}

section Overflow

variable (small : x.toNat < Word.modulus size) (small' : y.toNat < Word.modulus size) (bit : c ≤ 1)

include small small' bit

theorem addOverflows_iff (sum : r.toNat = (x.toNat + y.toNat + c) % Word.modulus size) :
    addOverflows x y r size ↔ ¬ Word.FitsSigned (x.signed size + y.signed size + c) size := by
  have once : r.toNat = x.toNat + y.toNat + c ∨
      r.toNat + Word.modulus size = x.toNat + y.toNat + c := by
    rcases Word.width_cases size with ⟨-, h⟩ | ⟨-, h⟩ | ⟨-, h⟩ <;>
      rw [h] at small small' sum ⊢ <;> omega
  have stored : r.toNat < Word.modulus size := sum ▸ Nat.mod_lt _ (by omega)
  simp only [addOverflows, Word.negative_of_lt small, Word.negative_of_lt small',
    Word.negative_of_lt stored]
  rw [Word.FitsSigned, Word.signed_of_lt small, Word.signed_of_lt small']
  obtain ⟨half, even⟩ := Word.two_dvd_modulus size
  grind

theorem subOverflows_iff
    (difference : (r.toNat : Int) = ((x.toNat : Int) - y.toNat - c) % Word.modulus size) :
    subOverflows x y r size ↔ ¬ Word.FitsSigned (x.signed size - y.signed size - c) size := by
  have once : r.toNat + y.toNat + c = x.toNat ∨
      r.toNat + y.toNat + c = x.toNat + Word.modulus size := by
    rcases Word.width_cases size with ⟨-, h⟩ | ⟨-, h⟩ | ⟨-, h⟩ <;>
      rw [h] at small small' difference ⊢ <;> omega
  have stored : r.toNat < Word.modulus size := by
    have bound := Int.emod_lt_of_pos ((x.toNat : Int) - y.toNat - c)
      (b := (Word.modulus size : Int)) (by omega)
    omega
  simp only [subOverflows, Word.negative_of_lt small, Word.negative_of_lt small',
    Word.negative_of_lt stored]
  rw [Word.FitsSigned, Word.signed_of_lt small, Word.signed_of_lt small']
  obtain ⟨half, even⟩ := Word.two_dvd_modulus size
  grind

end Overflow

/-- The flags describe a stored word, for which the signed operands give `v`. -/
structure Describes (f : Flags) (r : Word) (v : Int) (size : Nat) : Prop where
  sign : f.sign ↔ r.signed size < 0
  zero : f.zero ↔ r = 0
  overflow : f.overflow ↔ ¬ Word.FitsSigned v size

theorem describes_withSignZero {f : Flags} {v : Int} (stored : r.toNat < Word.modulus size)
    (overflow : f.overflow ↔ ¬ Word.FitsSigned v size) :
    (f.withSignZero r size).Describes r v size where
  sign := Word.negative_iff_signed stored
  zero := by rw [withSignZero, Word.truncate_of_lt stored, beq_iff_eq]
  overflow := overflow

/-- A subtraction looks at the low bytes of its result. -/
theorem afterSub_truncate (f : Flags) (x y r : Word) (borrow : Bool) (size : Nat) :
    f.afterSub x y (r.truncate size) borrow size = f.afterSub x y r borrow size := by
  simp only [afterSub, Word.truncate_truncate]

theorem carries_iff (sum size : Nat) : carries sum size ↔ ¬ Word.FitsUnsigned sum size := by
  have positive := Word.one_lt_modulus size
  rw [carries, decide_eq_true_iff, Word.toNat_mask, Word.FitsUnsigned]
  omega

/-- What a smaller number leaves is out of range below zero. -/
theorem borrows_iff (small : x.toNat < Word.modulus size) :
    x.toNat < y.toNat + c ↔ ¬ Word.FitsUnsigned (x.toNat - y.toNat - c) size := by
  rw [Word.FitsUnsigned]
  omega

section Describes

variable {f : Flags} {u v : Int} {w : Word} (small : x.toNat < Word.modulus size)
  (small' : y.toNat < Word.modulus size) (bit : c ≤ 1) (word : w = Word.ofInt u)

include small small' bit word

theorem describes_of_sum (unsigned : u = x.toNat + y.toNat + c)
    (signed : v = x.signed size + y.signed size + c)
    (overflow : f.overflow = addOverflows x y (w.truncate size) size) :
    (f.withSignZero (w.truncate size) size).Describes (w.truncate size) v size := by
  have stored := Word.toNat_truncate_ofInt u size
  rw [← word] at stored
  refine describes_withSignZero (Word.toNat_truncate_lt ..) ?_
  rw [overflow, signed]
  refine addOverflows_iff small small' bit ?_
  rw [unsigned] at stored
  exact_mod_cast stored

theorem describes_of_difference (unsigned : u = x.toNat - y.toNat - c)
    (signed : v = x.signed size - y.signed size - c)
    (overflow : f.overflow = subOverflows x y (w.truncate size) size) :
    (f.withSignZero (w.truncate size) size).Describes (w.truncate size) v size := by
  have stored := Word.toNat_truncate_ofInt u size
  rw [← word] at stored
  refine describes_withSignZero (Word.toNat_truncate_lt ..) ?_
  rw [overflow, signed]
  refine subOverflows_iff small small' bit ?_
  rw [stored, unsigned]

end Describes

end Flags

end ReducedX86
