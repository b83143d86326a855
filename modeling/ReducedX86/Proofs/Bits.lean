import Mathlib.Data.Nat.Bitwise
import ReducedX86.Proofs.Memory
import ReducedX86.Proofs.Word

/-!
Single bits of words and of memory.

A byte store is one bit string, the lowest bit of its first byte first. A number that is loaded is
a section of it, so its bits are those of the bytes that it covers, and to set one of them in the
number or in its byte comes to the same.
-/
namespace ReducedX86

namespace Word

theorem bit_of_le {w : Word} {j : Nat} (above : 32 ≤ j) : w.bit j = false :=
  Nat.testBit_lt_two_pow (Nat.lt_of_lt_of_le w.toNat_lt (Nat.pow_le_pow_right (by decide) above))

theorem bit_truncate (w : Word) (size j : Nat) :
    (w.truncate size).bit j = (decide (j < bits size) && w.bit j) := by
  rw [bit, toNat_truncate, modulus_eq_two_pow, Nat.testBit_mod_two_pow, bit]

/-- The word in which `setBit` finds the bit that it changes. -/
theorem toNat_one_shiftLeft {i : Nat} (inside : i < 32) :
    ((1 : Word) <<< UInt32.ofNat i).toNat = 2 ^ i := by
  have small : 2 ^ i < 2 ^ 32 := Nat.pow_lt_pow_right (by decide) inside
  rw [UInt32.toNat_shiftLeft, UInt32.toNat_ofNat', Nat.mod_mod_of_dvd _ (by decide),
    Nat.mod_eq_of_lt inside, UInt32.toNat_one, Nat.one_shiftLeft, Nat.mod_eq_of_lt small]

theorem bit_setBit (w : Word) {i : Nat} (inside : i < 32) (b : Bool) (j : Nat) :
    (w.setBit i b).bit j = if j = i then b else w.bit j := by
  have one := toNat_one_shiftLeft inside
  cases b with
  | true =>
      rw [setBit, if_pos rfl, bit, UInt32.toNat_or, one, Nat.testBit_or, Nat.testBit_two_pow]
      rcases eq_or_ne j i with rfl | other
      · simp
      · simp [other, other.symm, bit]
  | false =>
      have small : 2 ^ i < 2 ^ 32 := Nat.pow_lt_pow_right (by decide) inside
      have mask : (~~~((1 : Word) <<< UInt32.ofNat i)).toNat = 2 ^ 32 - (2 ^ i + 1) := by
        rw [UInt32.toNat_not, one, UInt32.size]
        omega
      rw [setBit, if_neg (by decide), bit, UInt32.toNat_and, mask, Nat.testBit_and,
        Nat.testBit_two_pow_sub_succ small, Nat.testBit_two_pow]
      rcases eq_or_ne j i with rfl | other
      · simp
      · by_cases below : j < 32
        · simp [other, other.symm, below, bit]
        · have above : w.toNat.testBit j = false := bit_of_le (Nat.le_of_not_lt below)
          simp [other, above, bit]

theorem bits_of_accessSize {size : Nat} (access : Memory.isAccessSize size) :
    bits size = 8 * size := by
  simp only [Memory.isAccessSize, Bool.or_eq_true, beq_iff_eq] at access
  rcases access with (rfl | rfl) | rfl <;> rfl

end Word

namespace Bytes

/-- Bit `k` of all the bytes, the lowest bit of the first byte first. -/
def bitAt (b : ByteArray) (k : Nat) : Bool := (byteAt b (k / 8)).toNat.testBit (k % 8)

theorem bitAt_of_lt (b : ByteArray) (i : Nat) {j : Nat} (inside : j < 8) :
    bitAt b (8 * i + j) = (byteAt b i).toNat.testBit j := by
  rw [bitAt, Nat.mul_add_div (by decide), Nat.div_eq_of_lt inside, Nat.mul_add_mod,
    Nat.mod_eq_of_lt inside, Nat.add_zero]

theorem ext_bitAt {b c : ByteArray} (size : b.size = c.size)
    (bits : ∀ k, bitAt b k = bitAt c k) : b = c := by
  refine ext size fun i => UInt8.toNat_inj.mp (Nat.eq_of_testBit_eq fun j => ?_)
  by_cases inside : j < 8
  · rw [← bitAt_of_lt b i inside, ← bitAt_of_lt c i inside, bits]
  · have above : 2 ^ 8 ≤ 2 ^ j := Nat.pow_le_pow_right (by decide) (Nat.le_of_not_lt inside)
    rw [Nat.testBit_lt_two_pow (Nat.lt_of_lt_of_le (byteAt b i).toNat_lt above),
      Nat.testBit_lt_two_pow (Nat.lt_of_lt_of_le (byteAt c i).toNat_lt above)]

theorem testBit_load (b : ByteArray) (start n k : Nat) :
    (load b start n).testBit k = (decide (k < 8 * n) && bitAt b (8 * start + k)) := by
  induction n generalizing start k with
  | zero => simp [load]
  | succ n ih =>
      have low := (byteAt b start).toNat_lt
      rw [load, Nat.add_comm, Nat.testBit_two_pow_mul_add (i := 8) _ low, ih]
      by_cases first : k < 8
      · rw [if_pos first, bitAt_of_lt b start first, decide_eq_true (by omega), Bool.true_and]
      · have inside : k - 8 < 8 * n ↔ k < 8 * (n + 1) := by omega
        have place : 8 * (start + 1) + (k - 8) = 8 * start + k := by omega
        rw [if_neg first, place]
        simp only [inside]

theorem bitAt_store (b : ByteArray) (start n value k : Nat) :
    bitAt (store b start n value) k =
      if 8 * start ≤ k ∧ k < 8 * (start + n) ∧ k < 8 * b.size then value.testBit (k - 8 * start)
      else bitAt b k := by
  have covered : (start ≤ k / 8 ∧ k / 8 < start + n ∧ k / 8 < b.size) ↔
      8 * start ≤ k ∧ k < 8 * (start + n) ∧ k < 8 * b.size := by omega
  rw [bitAt, byteAt_store]
  simp only [covered]
  split
  · have place : 8 * (k / 8 - start) + k % 8 = k - 8 * start := by omega
    rw [UInt8.toNat_ofNat', Nat.testBit_mod_two_pow, decide_eq_true (Nat.mod_lt _ (by decide)),
      Bool.true_and, Nat.testBit_shiftRight, place]
  · rfl

end Bytes

namespace Memory

variable {m : Memory} {address there : Word} {size i j : Nat}

/-- Bit `i` of the byte at an address. -/
def bitAt (m : Memory) (address : Word) (i : Nat) : Bool := (m.load address 1).bit i

/-- The memory with bit `i` of the byte at an address set to `b`. -/
def withBit (m : Memory) (address : Word) (i : Nat) (b : Bool) : Memory :=
  m.store address ((m.load address 1).setBit i b) 1

theorem readFault?_byte (inside : m.inRange address 1) : m.readFault? address 1 = none :=
  readFault?_eq_none_iff.mpr ⟨inside, rfl⟩

@[simp] theorem size_withBit (address : Word) (i : Nat) (b : Bool) :
    (m.withBit address i b).size = m.size := size_store ..

/-- A bit that is set changes itself only. -/
theorem bitAt_withBit (inside : m.inRange address 1) (inside' : m.inRange there 1) (low : i < 8)
    (low' : j < 8) (b : Bool) :
    (m.withBit address i b).bitAt there j =
      if there = address ∧ j = i then b else m.bitAt there j := by
  by_cases same : there = address
  · subst same
    rw [bitAt, withBit, load_store (readFault?_byte inside), Word.bit_truncate,
      decide_eq_true (show j < Word.bits 1 from low'), Bool.true_and,
      Word.bit_setBit _ (by omega), bitAt]
    simp only [true_and]
  · have apart : address.toNat + 1 ≤ there.toNat ∨ there.toNat + 1 ≤ address.toNat := by
      have distinct : there.toNat ≠ address.toNat := fun eq => same (UInt32.toNat_inj.mp eq)
      omega
    rw [bitAt, withBit, load_store_of_apart _ inside inside' apart, if_neg fun both => same both.1,
      bitAt]

/-- The bits of a number that is loaded, in the bit string of the bytes. -/
theorem bit_load (access : isAccessSize size) (inside : j < 8 * size) :
    (m.load address size).bit j = Bytes.bitAt m.bytes (8 * (address.toNat - base) + j) := by
  have whole : Bytes.load m.bytes (address.toNat - base) size < 2 ^ 32 := by
    refine Nat.lt_of_lt_of_le (Bytes.load_lt ..) ?_
    rw [← Word.modulus_of_accessSize access]
    exact Word.modulus_le size
  rw [Word.bit, load, UInt32.toNat_ofNat', Nat.mod_eq_of_lt whole, Bytes.testBit_load,
    decide_eq_true inside, Bool.true_and]

/-- A number that is stored back with one bit set. -/
theorem bitAt_store_setBit (readable : m.readFault? address size = none) (inside : j < 8 * size)
    (b : Bool) (k : Nat) :
    Bytes.bitAt (m.store address ((m.load address size).setBit j b) size).bytes k =
      if k = 8 * (address.toNat - base) + j then b else Bytes.bitAt m.bytes k := by
  obtain ⟨within, access⟩ := readFault?_eq_none_iff.mp readable
  obtain ⟨lower, upper⟩ := inRange_iff.mp within
  have narrow : 8 * size ≤ 32 := Word.bits_of_accessSize access ▸ Word.bits_le size
  rw [Memory.size] at upper
  rw [store, Bytes.bitAt_store]
  split
  · rename_i covered
    have place : 8 * (address.toNat - base) + (k - 8 * (address.toNat - base)) = k := by omega
    have named : k - 8 * (address.toNat - base) = j ↔ k = 8 * (address.toNat - base) + j := by omega
    have set := Word.bit_setBit (m.load address size) (show j < 32 by omega) b
      (k - 8 * (address.toNat - base))
    rw [Word.bit, bit_load access (by omega), place] at set
    rw [set]
    simp only [named]
  · rw [if_neg (by omega)]

/-- A bit of a number is a bit of one of its bytes. -/
theorem bit_load_eq_bitAt (access : isAccessSize size) (inside : j < 8 * size)
    (lower : base ≤ address.toNat) (byte : there.toNat = address.toNat + j / 8) :
    (m.load address size).bit j = m.bitAt there (j % 8) := by
  have place : 8 * (there.toNat - base) + j % 8 = 8 * (address.toNat - base) + j := by omega
  rw [bitAt, bit_load access inside, bit_load rfl (by omega), place]

/-- To set a bit in a number or in one of its bytes is the same. -/
theorem store_setBit_eq_withBit (readable : m.readFault? address size = none)
    (inside : j < 8 * size) (byte : there.toNat = address.toNat + j / 8) (b : Bool) :
    m.store address ((m.load address size).setBit j b) size = m.withBit there (j % 8) b := by
  obtain ⟨lower, upper⟩ := inRange_iff.mp (readFault?_eq_none_iff.mp readable).1
  have within : m.inRange there 1 := inRange_iff.mpr (by omega)
  have place : 8 * (there.toNat - base) + j % 8 = 8 * (address.toNat - base) + j := by omega
  have bytes : (m.store address ((m.load address size).setBit j b) size).bytes =
      (m.withBit there (j % 8) b).bytes := by
    refine Bytes.ext_bitAt ((size_store ..).trans (size_withBit ..).symm) fun k => ?_
    rw [bitAt_store_setBit readable inside, withBit,
      bitAt_store_setBit (readFault?_byte within) (by omega), place]
  exact congrArg Memory.mk bytes

/-- To set a bit to what it is changes nothing. -/
theorem withBit_bitAt (inside : m.inRange address 1) (low : i < 8) :
    m.withBit address i (m.bitAt address i) = m := by
  have bytes : (m.withBit address i (m.bitAt address i)).bytes = m.bytes := by
    refine Bytes.ext_bitAt (size_withBit ..) fun k => ?_
    rw [withBit, bitAt_store_setBit (readFault?_byte inside) low, bitAt, bit_load rfl low]
    split
    · rename_i same
      rw [same]
    · rfl
  exact congrArg Memory.mk bytes

/-- Only the low bytes of a value are stored. -/
theorem store_truncate (access : isAccessSize size) (value : Word) :
    m.store address (value.truncate size) size = m.store address value size := by
  have bytes : (m.store address (value.truncate size) size).bytes =
      (m.store address value size).bytes := by
    refine Bytes.ext_bitAt ((size_store ..).trans (size_store ..).symm) fun k => ?_
    rw [store, store, Bytes.bitAt_store, Bytes.bitAt_store]
    split
    · have kept := Word.bit_truncate value size (k - 8 * (address.toNat - base))
      rwa [Word.bits_of_accessSize access, decide_eq_true (by omega), Bool.true_and] at kept
    · rfl
  exact congrArg Memory.mk bytes

end Memory

end ReducedX86
