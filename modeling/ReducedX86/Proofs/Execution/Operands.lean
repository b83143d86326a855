import ReducedX86.Proofs.Execution.Actions
import ReducedX86.Proofs.Execution.Outcome
import ReducedX86.Proofs.Memory
import ReducedX86.Proofs.Register
import ReducedX86.Proofs.Word

/-!
Operands as places.

A value is cut to the width of its operand. What was stored through an operand is found there
again, a second store takes the place of the first, and to store what is there changes nothing.
-/
namespace ReducedX86

theorem Register.isAccessSize_size (r : Register) : Memory.isAccessSize r.size := by
  cases r <;> rfl

/-- A number that was loaded has the width at which it was loaded. -/
theorem Bytes.truncate_load {size : Nat} (access : Memory.isAccessSize size) (b : ByteArray)
    (start : Nat) :
    Word.truncate (UInt32.ofNat (load b start size)) size = UInt32.ofNat (load b start size) := by
  apply Word.truncate_of_lt
  rw [UInt32.toNat_ofNat', Word.modulus_of_accessSize access]
  exact Nat.lt_of_le_of_lt (Nat.mod_le ..) (load_lt ..)

theorem Operand.stored_of_isPlace {o : Operand} (place : o.isPlace) (value : Word) :
    o.stored value = value.truncate o.size := by
  cases o with
  | register _ | memory _ => rfl
  | immediate _ _ | label _ => cases place

namespace Processor

variable {δ : Type} (p : Processor δ) (o : Operand)

@[simp] theorem valueOf_withFlags (flags : Flags) :
    (p.withFlags flags).valueOf o = p.valueOf o := by
  cases o <;> rfl

@[simp] theorem readFault?_withFlags (flags : Flags) :
    (p.withFlags flags).readFault? o = p.readFault? o := by
  cases o <;> rfl

@[simp] theorem put_withFlags (flags : Flags) (value : Word) :
    (p.withFlags flags).put o value = (p.put o value).withFlags flags := by
  cases o <;> rfl

@[simp] theorem flags_put (value : Word) : (p.put o value).flags = p.flags := by
  cases o <;> rfl

@[simp] theorem withFlags_withFlags (flags flags' : Flags) :
    (p.withFlags flags).withFlags flags' = p.withFlags flags' := rfl

@[simp] theorem flags_withFlags (flags : Flags) : (p.withFlags flags).flags = flags := rfl

@[simp] theorem withFlags_flags : p.withFlags p.flags = p := rfl

@[simp] theorem readFault?_put (value : Word) : (p.put o value).readFault? o = p.readFault? o := by
  cases o with
  | memory m => exact Memory.readFault?_store ..
  | register _ | immediate _ _ | label _ => rfl

theorem put_put (value other : Word) : (p.put o value).put o other = p.put o other := by
  cases o with
  | register r => simp only [put, setReg, RegisterFile.set_set]
  | memory m => simp only [put, storeAt, addressOf, Memory.store, Bytes.store_store]
  | immediate _ _ | label _ => rfl

variable {p o}

/-- What an operand holds fits its width. -/
theorem truncate_valueOf (access : Memory.isAccessSize o.size) :
    (p.valueOf o).truncate o.size = p.valueOf o := by
  cases o with
  | register r => exact Bytes.truncate_load access ..
  | memory m => exact Bytes.truncate_load access ..
  | label address => exact Word.truncate_four address
  | immediate value size =>
      have known : (size == 0) = false :=
        beq_eq_false_iff_ne.mpr (Signature.ne_zero_of_isAccessSize access)
      simp only [valueOf, Operand.cut, Operand.size, known]
      exact Word.truncate_truncate value size

theorem valueOf_put (place : o.isPlace) (readable : p.readFault? o = none) (value : Word) :
    (p.put o value).valueOf o = value.truncate o.size := by
  cases o with
  | register r => exact RegisterFile.get_set_self p.registers r value
  | memory m =>
      exact (Memory.load_store readable _).trans (Word.truncate_truncate value m.size)
  | immediate _ _ | label _ => cases place

theorem put_valueOf (readable : p.readFault? o = none) : p.put o (p.valueOf o) = p := by
  cases o with
  | register r => simp only [put, valueOf, setReg, reg, RegisterFile.set_get]
  | memory m =>
      have access := (Memory.readFault?_eq_none_iff.mp readable).2
      have bound : Bytes.load p.memory.bytes ((p.addressOf m).toNat - Memory.base) m.size <
          0x100000000 := by
        refine Nat.lt_of_lt_of_le (Bytes.load_lt ..) ?_
        rw [← Word.modulus_of_accessSize access]
        exact Word.modulus_le m.size
      have kept : (p.memory.load (p.addressOf m) m.size).truncate m.size =
          p.memory.load (p.addressOf m) m.size := Bytes.truncate_load access ..
      simp only [put, valueOf, storeAt, kept]
      simp only [Memory.store, Memory.load, UInt32.toNat_ofNat', Nat.mod_eq_of_lt bound,
        Bytes.store_load]
  | immediate _ _ | label _ => rfl

/-- What can be written can be read. -/
theorem readFault?_of_writeFault? (writable : p.writeFault? o = none) : p.readFault? o = none := by
  cases o with
  | memory m => exact Memory.writeFault?_eq_none_iff.mp writable
  | register _ | immediate _ _ | label _ => rfl

/-- Only the low bytes of a value are stored. -/
theorem put_truncate (place : o.isPlace) (readable : p.readFault? o = none) (value : Word) :
    p.put o (value.truncate o.size) = p.put o value := by
  have stays := put_valueOf (p := p.put o value) ((readFault?_put p o value).trans readable)
  rwa [valueOf_put place readable, put_put] at stays

/-- What an operand holds is a number of its width. -/
theorem toNat_valueOf_lt (access : Memory.isAccessSize o.size) :
    (p.valueOf o).toNat < Word.modulus o.size := by
  rw [← truncate_valueOf access]
  exact Word.toNat_truncate_lt ..

theorem isAccessSize_of_readable (place : o.isPlace) (readable : p.readFault? o = none) :
    Memory.isAccessSize o.size := by
  cases o with
  | register r => exact r.isAccessSize_size
  | memory m => exact (Memory.readFault?_eq_none_iff.mp readable).2
  | immediate _ _ | label _ => cases place

end Processor

end ReducedX86
