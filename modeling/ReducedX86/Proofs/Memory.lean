import ReducedX86.Memory
import ReducedX86.Proofs.Bytes
import ReducedX86.Settings

/-!
What memory holds after a store.

A value that was stored in range is read back cut to its width, and reads elsewhere are not
disturbed. A read depends on the bytes of its range alone. How far an access may reach is the room
that there is from its address on.
-/
namespace ReducedX86

theorem Bytes.byteAt_of_slice {b c : ByteArray} {start n i : Nat}
    (same : slice b start n = slice c start n) (lower : start ≤ i) (upper : i < start + n) :
    byteAt b i = byteAt c i := by
  have pointwise := List.map_inj_left.mp same (i - start) (List.mem_range.mpr (by omega))
  rwa [Nat.add_sub_cancel' lower] at pointwise

namespace Memory

variable {m : Memory} {address : Word} {size : Nat}

/-- The byte at a place of memory, counted as addresses are. -/
def byteAt (m : Memory) (place : Nat) : UInt8 := Bytes.byteAt m.bytes (place - base)

theorem byteAt_clear (m : Memory) (place : Nat) : m.clear.byteAt place = 0 :=
  Bytes.byteAt_zeros ..

theorem le_four_of_isAccessSize (access : isAccessSize size) : size ≤ 4 := by
  simp only [isAccessSize, Bool.or_eq_true, beq_iff_eq] at access
  omega

theorem debugSize_of_isAccessSize (access : isAccessSize size) : debugSize size = size := by
  simp only [isAccessSize, Bool.or_eq_true, beq_iff_eq] at access
  rcases access with (rfl | rfl) | rfl <;> rfl

theorem isAccessSize_debugSize (size : Nat) : isAccessSize (debugSize size) := by
  unfold debugSize
  split <;> rfl

theorem inRange_iff :
    m.inRange address size ↔ base ≤ address.toNat ∧ address.toNat + size ≤ base + m.size := by
  simp [inRange]

@[simp] theorem inRange_store (there value : Word) (count : Nat) :
    (m.store there value count).inRange address size = m.inRange address size := by
  rw [inRange, inRange, size_store]

@[simp] theorem readFault?_store (there value : Word) (count : Nat) :
    (m.store there value count).readFault? address size = m.readFault? address size := by
  rw [readFault?, readFault?, inRange_store]

@[simp] theorem writeFault?_store (there value : Word) (count : Nat) :
    (m.store there value count).writeFault? address size = m.writeFault? address size := by
  rw [writeFault?, writeFault?, inRange_store]

theorem readFault?_eq_none_iff :
    m.readFault? address size = none ↔ m.inRange address size ∧ isAccessSize size := by
  rw [readFault?]
  cases m.inRange address size <;> cases isAccessSize size <;> simp

/-- What can be read can be written. -/
theorem writeFault?_eq_none_iff :
    m.writeFault? address size = none ↔ m.readFault? address size = none := by
  simp only [writeFault?, readFault?]
  grind

theorem read_eq_ok_iff {value : Word} :
    m.read address size = .ok value ↔
      m.readFault? address size = none ∧ m.load address size = value := by
  rw [read]
  cases m.readFault? address size <;> simp

theorem write_eq_ok_iff {value : Word} {m' : Memory} :
    m.write address value size = .ok m' ↔
      m.writeFault? address size = none ∧ m.store address value size = m' := by
  rw [write]
  cases m.writeFault? address size <;> simp

theorem load_store (readable : m.readFault? address size = none) (value : Word) :
    (m.store address value size).load address size = value.truncate size := by
  obtain ⟨inside, access⟩ := readFault?_eq_none_iff.mp readable
  obtain ⟨lower, upper⟩ := inRange_iff.mp inside
  have modulus : 1 <<< (8 * size) = Word.modulus size ∧ Word.modulus size ≤ 0x100000000 ∧
      0 < Word.modulus size := by
    simp only [isAccessSize, Bool.or_eq_true, beq_iff_eq] at access
    rcases access with (rfl | rfl) | rfl <;> decide
  have within : address.toNat - base + size ≤ m.bytes.size := by
    rw [Memory.size] at upper
    omega
  have small := Nat.mod_lt value.toNat modulus.2.2
  apply UInt32.toNat_inj.mp
  rw [load, store, Bytes.load_store _ _ _ _ within, modulus.1, Word.toNat_truncate,
    UInt32.toNat_ofNat']
  omega

/-- A store leaves the ranges alone that it does not reach into. -/
theorem load_store_of_apart {there : Word} {count : Nat} (value : Word)
    (written : m.inRange there count) (inside : m.inRange address size)
    (apart : there.toNat + count ≤ address.toNat ∨ address.toNat + size ≤ there.toNat) :
    (m.store there value count).load address size = m.load address size := by
  have lower := (inRange_iff.mp written).1
  have lower' := (inRange_iff.mp inside).1
  rw [load, store, Bytes.load_store_of_apart _ _ _ _ _ _ (by omega), load]

/-- What a store does not reach is read as before, or refused as before. -/
theorem read_store_of_apart {there : Word} {count : Nat} (value : Word)
    (written : m.inRange there count)
    (apart : there.toNat + count ≤ address.toNat ∨ address.toNat + size ≤ there.toNat) :
    (m.store there value count).read address size = m.read address size := by
  rw [read, read, readFault?_store]
  cases readable : m.readFault? address size with
  | some fault => rfl
  | none => rw [load_store_of_apart value written (readFault?_eq_none_iff.mp readable).1 apart]

theorem store_comm {there : Word} {count : Nat} (value other : Word) (lower : base ≤ address.toNat)
    (apart : address.toNat + size ≤ there.toNat) :
    (m.store address value size).store there other count =
      (m.store there other count).store address value size := by
  rw [store, store, store, store, Bytes.store_comm]
  omega

/-- Where two memories have the same bytes, they give the same reads. -/
theorem read_of_slice? {m' : Memory} {start : Word} {length : Nat}
    (same : m'.slice? start length = m.slice? start length)
    (lower : start.toNat ≤ address.toNat)
    (upper : address.toNat + size ≤ start.toNat + length) {value : Word}
    (whole : m.inRange start length) (found : m.read address size = .ok value) :
    m'.read address size = .ok value := by
  rw [slice?, slice?, if_pos whole] at same
  split at same
  · rename_i whole'
    obtain ⟨readable, loaded⟩ := read_eq_ok_iff.mp found
    obtain ⟨inside, access⟩ := readFault?_eq_none_iff.mp readable
    have := inRange_iff.mp whole
    have := inRange_iff.mp whole'
    have inside' : m'.inRange address size := inRange_iff.mpr (by omega)
    refine read_eq_ok_iff.mpr ⟨readFault?_eq_none_iff.mpr ⟨inside', access⟩, ?_⟩
    rw [← loaded, load, load]
    congr 1
    apply Bytes.load_congr
    intro i above below
    exact Bytes.byteAt_of_slice (Option.some.inj same) (by omega) (by omega)
  · cases same

/-- The addresses of the data and the limit behind them are words. -/
def Addressable (m : Memory) : Prop := base + m.size < 0x100000000

/-- Memory of an acceptable size is addressable. -/
theorem addressable_zero {n : Nat} (valid : Settings.isMemorySize n) : (zero n).Addressable := by
  obtain ⟨k, small, rfl⟩ := (Settings.isMemorySize_iff n).mp valid
  have bound : (1 : Nat) <<< k ≤ 2 ^ 30 := by
    rw [Nat.one_shiftLeft]
    exact Nat.pow_le_pow_right (by decide) small
  have sized : (zero (1 <<< k)).size = 1 <<< k := Bytes.size_zeros _
  rw [Addressable, sized, base]
  omega

theorem toNat_limit (addressable : m.Addressable) : m.limit.toNat = base + m.size := by
  rw [limit, UInt32.toNat_ofNat']
  exact Nat.mod_eq_of_lt addressable

/-- How many bytes of data there are from an address on. -/
def room (m : Memory) (address : Word) : Nat :=
  if base ≤ address.toNat then base + m.size - address.toNat else 0

@[simp] theorem room_store (there value : Word) (count : Nat) :
    (m.store there value count).room address = m.room address := by
  rw [room, room, size_store]

theorem inRange_iff_room (some : 0 < size) : m.inRange address size ↔ size ≤ m.room address := by
  rw [inRange_iff, room]
  split <;> omega

/-- Behind an address that is in memory there is less room by the distance; past the end there is
none, also where addresses begin again at zero. -/
theorem room_add {k : Word} (addressable : m.Addressable) (inside : 0 < m.room address)
    (short : k.toNat ≤ base) : m.room (address + k) = m.room address - k.toNat := by
  rw [Addressable, base] at addressable
  rw [base] at short
  by_cases lower : 1024 ≤ address.toNat
  · rw [room, base, if_pos lower] at inside
    rw [room, room, base, if_pos lower, UInt32.toNat_add]
    split <;> omega
  · rw [room, base, if_neg lower] at inside
    exact absurd inside (Nat.lt_irrefl 0)

end Memory

end ReducedX86
