import ReducedX86.Device.Script
import ReducedX86.Proofs.Bits
import ReducedX86.Proofs.Execution.Operands
import ReducedX86.Proofs.Instruction.Restoring

/-!
Bits of a bit string.

A bit index in a register selects a bit of the bytes from the address of a memory operand on, or
before it where the index is negative. Within the operand this is the bit that a constant index
selects in the number that the operand holds, and in a register the two agree for every index.
-/
namespace ReducedX86

/-- A signed index that lies within a wide operand is the number itself. -/
theorem Word.index_within {w : Word} {size : Nat} (wide : Signature.wideSize size)
    (small : w.toNat < modulus size) (lower : 0 ≤ w.signed size)
    (upper : w.signed size < bits size) :
    w.signed size = w.toNat ∧ w.toNat < 8 * size ∧
      w.toNat % (if size = 4 then 32 else 16) = w.toNat := by
  have positive : w.signed size = w.toNat := by
    rw [signed_of_lt small] at lower ⊢
    split <;> omega
  have inside : w.toNat < 8 * size := by
    rw [positive, bits_of_accessSize (Signature.isAccessSize_of_wideSize wide)] at upper
    omega
  simp only [Signature.wideSize, Bool.or_eq_true, beq_iff_eq] at wide
  refine ⟨positive, inside, Nat.mod_eq_of_lt ?_⟩
  rcases wide with rfl | rfl <;> exact inside

namespace BitOp

/-- The operation tests a bit that is named by its index. -/
def tests : BitOp → Bool
  | .bt | .btc | .btr | .bts => true
  | .bsf | .bsr => false

/-- What the tested bit is afterwards. -/
def leaves : BitOp → Bool → Bool
  | .bt, b | .bsf, b | .bsr, b => b
  | .btc, b => !b
  | .btr, _ => false
  | .bts, _ => true

end BitOp

namespace Processor

variable {δ : Type} {p : Processor δ} {op : BitOp} {address : Word} {i : Nat}

/-- The processor with bit `i` of the byte at an address set to `b`. -/
def withBit (p : Processor δ) (address : Word) (i : Nat) (b : Bool) : Processor δ :=
  { p with memory := p.memory.withBit address i b }

/-- The processor after a test of bit `i` of the byte at an address. -/
def testBitAt (p : Processor δ) (op : BitOp) (address : Word) (i : Nat) : Processor δ :=
  (p.withBit address i (op.leaves (p.memory.bitAt address i))).withFlags
    { p.flags with carry := p.memory.bitAt address i }

theorem toNat_reg_lt (p : Processor δ) (r : Register) : (p.reg r).toNat < Word.modulus r.size :=
  toNat_valueOf_lt (o := .register r) r.isAccessSize_size

theorem withBit_bitAt (inside : p.memory.inRange address 1) (low : i < 8) :
    p.withBit address i (p.memory.bitAt address i) = p := by
  rw [withBit, Memory.withBit_bitAt inside low]

/-- To set a bit of a memory operand sets a bit of one of its bytes. -/
theorem put_setBit {m : MemoryOperand} {j : Nat} (readable : p.readFault? (.memory m) = none)
    (inside : j < 8 * m.size) (byte : address.toNat = (p.addressOf m).toNat + j / 8) (b : Bool) :
    p.put (.memory m) ((p.valueOf (.memory m)).setBit j b) = p.withBit address (j % 8) b := by
  have access := (Memory.readFault?_eq_none_iff.mp readable).2
  rw [put, storeAt, valueOf, Memory.store_truncate access,
    Memory.store_setBit_eq_withBit readable inside byte, withBit]

/-- `q` is `p` after a test of bit `i` of the byte at an address: carry is what the bit was, and
nothing else but the bit is changed. -/
structure TestsBit (op : BitOp) (address : Word) (i : Nat) (p q : Processor δ) : Prop where
  flags : q.flags = { p.flags with carry := p.memory.bitAt address i }
  bit : q.memory.bitAt address i = op.leaves (p.memory.bitAt address i)
  others : ∀ there j, p.memory.inRange there 1 → j < 8 → there ≠ address ∨ j ≠ i →
    q.memory.bitAt there j = p.memory.bitAt there j
  size : q.memory.size = p.memory.size
  elsewhere : q = { p with flags := q.flags, memory := q.memory }

theorem testsBit_testBitAt (inside : p.memory.inRange address 1) (low : i < 8) :
    p.TestsBit op address i (p.testBitAt op address i) := by
  refine ⟨rfl, ?_, fun there j inside' low' other => ?_, Memory.size_withBit .., rfl⟩
  · exact (Memory.bitAt_withBit inside inside low low _).trans (if_pos ⟨rfl, rfl⟩)
  · refine (Memory.bitAt_withBit inside inside' low low' _).trans (if_neg ?_)
    rintro ⟨same, same'⟩
    exact other.elim (absurd same) (absurd same')

end Processor

namespace Execution

variable {δ : Type} {p : Processor δ} {op : BitOp} {m : MemoryOperand} {dst : Operand}
  {r : Register} {address : Word} {k : Int} {j : Nat}

section Tests

variable (tests : op.tests)

include tests

theorem testBitString_run (there : p.addressOf m + Word.ofInt (k / 8) = address)
    (inside : p.memory.inRange address 1) :
    (testBitString op m k).run p = .ok () (p.testBitAt op address (k % 8).toNat) := by
  have readable := Memory.readFault?_byte inside
  have writable := Memory.writeFault?_eq_none_iff.mpr readable
  have kept := Processor.withBit_bitAt inside (show (k % 8).toNat < 8 by omega)
  have value : (p.memory.load address 1).bit (k % 8).toNat =
      p.memory.bitAt address (k % 8).toNat := rfl
  have stored (flags : Flags) (b : Bool) : (p.withFlags flags).storeAt address
      ((p.memory.load address 1).setBit (k % 8).toNat b) 1 =
        (p.withBit address (k % 8).toNat b).withFlags flags := rfl
  apply Outcome.run_eq_ok
  cases op with
  | bsf | bsr => cases tests
  | bt =>
      simp [testBitString, setCarry, changedBit?, Processor.testBitAt, BitOp.leaves, there,
        readable, value, kept]
  | btc | btr | bts =>
      simp [testBitString, setCarry, changedBit?, Processor.testBitAt, BitOp.leaves, there,
        readable, writable, value, stored]

theorem testOperandBit_run (readable : p.readFault? (.memory m) = none) (inside : j < 8 * m.size)
    (byte : address.toNat = (p.addressOf m).toNat + j / 8) :
    (testOperandBit op (.memory m) j).run p = .ok () (p.testBitAt op address (j % 8)) := by
  have writable := Processor.writeFault?_of_readFault? readable
  obtain ⟨within, access⟩ := Memory.readFault?_eq_none_iff.mp readable
  obtain ⟨lower, upper⟩ := Memory.inRange_iff.mp within
  have within' : p.memory.inRange address 1 := Memory.inRange_iff.mpr (by omega)
  have kept := Processor.withBit_bitAt within' (Nat.mod_lt j (by decide : 0 < 8))
  have value : (p.valueOf (.memory m)).bit j = p.memory.bitAt address (j % 8) :=
    Memory.bit_load_eq_bitAt access inside lower byte
  have stored := Processor.put_setBit readable inside byte
  apply Outcome.run_eq_ok
  cases op with
  | bsf | bsr => cases tests
  | bt =>
      simp [testOperandBit, setCarry, changedBit?, Processor.testBitAt, BitOp.leaves, readable,
        value, kept]
  | btc | btr | bts =>
      simp [testOperandBit, setCarry, changedBit?, Processor.testBitAt, BitOp.leaves, readable,
        writable, value, stored]

theorem bits_of_string : (bits op (some (.memory m), some (.register r)) : Execution δ Unit) =
    (read (.register r) >>= fun index => testBitString op m (index.signed r.size)) := by
  cases op with
  | bsf | bsr => cases tests
  | bt | btc | btr | bts => rfl

theorem bits_of_mask {src : Operand} (other : dst.isMemory = false ∨ src.register? = none) :
    (bits op (some dst, some src) : Execution δ Unit) = (read src >>= fun index =>
      testOperandBit op dst (index.toNat % (if dst.size = 4 then 32 else 16))) := by
  cases op with
  | bsf | bsr => cases tests
  | bt | btc | btr | bts =>
      refine congrArg (read src >>= ·) (funext fun index => ?_)
      split
      · rcases other with absent | absent <;> cases absent
      · rfl

theorem bits_run_of_string :
    (bits op (some (.memory m), some (.register r))).run p =
      (testBitString op m ((p.reg r).signed r.size)).run p := by
  have index : (read (.register r)).run p = .ok (p.reg r) p := rfl
  rw [bits_of_string tests, EStateM.run_bind, index]

theorem bits_run_of_mask {src : Operand} (other : dst.isMemory = false ∨ src.register? = none)
    (readable : p.readFault? src = none) :
    (bits op (some dst, some src)).run p = (testOperandBit op dst
      ((p.valueOf src).toNat % (if dst.size = 4 then 32 else 16))).run p := by
  have index : (read src).run p = .ok (p.valueOf src) p := by
    apply Outcome.run_eq_ok
    simp [readable]
  rw [bits_of_mask tests other, EStateM.run_bind, index]

end Tests

theorem testBitString_run_of_fault (there : p.addressOf m + Word.ofInt (k / 8) = address)
    (outside : ¬ p.memory.inRange address 1) :
    (testBitString op m k).run p = .error (.invalidReadAddress address) p := by
  apply Outcome.run_eq_error
  simp [testBitString, Memory.readFault?, there, outside]

/-- An index inside a memory operand selects the same bit in the string and in the number. -/
theorem testBitString_run_eq (tests : op.tests) {n : Nat} (inside : n < 8 * m.size)
    (there : p.addressOf m + Word.ofInt ((n : Int) / 8) = address)
    (byte : p.memory.inRange address 1) (readable : p.readFault? (.memory m) = none) :
    (testBitString op m n).run p = (testOperandBit op (.memory m) n).run p := by
  have access := (Memory.readFault?_eq_none_iff.mp readable).2
  have narrow : 8 * m.size ≤ 32 := Word.bits_of_accessSize access ▸ Word.bits_le m.size
  have byte' : address.toNat = (p.addressOf m).toNat + n / 8 := by
    -- The byte lies in memory, so its address has not wrapped.
    have lower := (Memory.inRange_iff.mp byte).1
    have small := (p.addressOf m).toNat_lt
    have index : Word.ofInt ((n : Int) / 8) = UInt32.ofNat (n / 8) := Word.ofInt_natCast (n / 8)
    rw [← there, index, UInt32.toNat_add, UInt32.toNat_ofNat', Memory.base] at lower
    rw [← there, index, UInt32.toNat_add, UInt32.toNat_ofNat']
    omega
  have low : ((n : Int) % 8).toNat = n % 8 := by omega
  rw [testBitString_run tests there byte, testOperandBit_run tests readable inside byte', low]

/-- Inside a memory operand an index in a register is as good as a masked one. -/
theorem testBitString_run_of_within (tests : op.tests) (wide : Signature.wideSize m.size)
    (same : m.size = r.size)
    (within : 0 ≤ (p.reg r).signed r.size ∧ (p.reg r).signed r.size < Word.bits m.size)
    (byte : p.memory.inRange (p.addressOf m + Word.ofInt ((p.reg r).signed r.size / 8)) 1)
    (readable : p.readFault? (.memory m) = none) :
    (testBitString op m ((p.reg r).signed r.size)).run p = (testOperandBit op (.memory m)
      ((p.reg r).toNat % (if m.size = 4 then 32 else 16))).run p := by
  rw [same] at wide within ⊢
  obtain ⟨index, inside, masked⟩ :=
    Word.index_within wide (p.toNat_reg_lt r) within.1 within.2
  rw [index] at byte ⊢
  rw [masked]
  exact testBitString_run_eq tests (same ▸ inside) rfl byte readable

end Execution

namespace Instruction

variable {δ : Type} {i : Instruction} {op : BitOp} {dst : Operand} {r : Register}

/-- The instruction with a constant in the place of its second operand, of the width of `dst`. -/
def withIndex (i : Instruction) (dst : Operand) (value : Word) : Instruction :=
  { i with op2 := some (.immediate value dst.size) }

theorem Validated.wideSize_of_bitIndex (valid : i.Validated)
    (rule : i.op.signature.rule = .bitIndex) (two : i.op.signature.operandCount = 2)
    (first : i.op1 = some dst) : Signature.wideSize dst.size := by
  obtain ⟨given, valid⟩ := valid
  rw [first] at valid
  generalize i.op2 = second at valid
  cases Signature.passes_of_validate valid with
  | one count => exact absurd (count.symm.trans two) (by decide)
  | two count ruled =>
      simp only [rule, Signature.applyBinaryRule, Signature.matchSizes_eq] at ruled
      grind

theorem execute_of_bits [PortDevice δ] (isBits : i.op = .bits op) (first : i.op1 = some dst)
    {src : Operand} (second : i.op2 = some src) :
    (i.execute : Execution δ Unit) = Execution.bits op (some dst, some src) := by
  rw [execute, isBits, first, second]
  rfl

section Tests

variable (valid : i.Validated) (isBits : i.op = .bits op) (tests : op.tests)
  (first : i.op1 = some dst)

include isBits tests

/-- The operations that test a bit share a signature. -/
theorem signature_of_tests : i.op.signature = (Operator.bits .bt).signature := by
  rw [isBits]
  cases op with
  | bsf | bsr => cases tests
  | bt | btc | btr | bts => rfl

include valid first

theorem wideSize_of_tests : Signature.wideSize dst.size := by
  have like := signature_of_tests isBits tests
  exact valid.wideSize_of_bitIndex (like ▸ rfl) (like ▸ rfl) first

/-- Every constant of the width is accepted as an index. -/
theorem withIndex_validated (value : Word) : (i.withIndex dst value).Validated := by
  have like := signature_of_tests isBits tests
  have wide := wideSize_of_tests valid isBits tests first
  have supported :=
    Signature.supportedSize_of_isAccessSize (Signature.isAccessSize_of_wideSize wide)
  have kind := valid.kinds.1 dst first
  have constant : OperandKind.immediate ∈ (Operator.bits .bt).signature.second := by decide
  have eip := valid.ne_eip.1
  rw [like] at kind
  rw [first, ne_eq, Option.some.injEq] at eip
  have checked := Signature.validate_of_binary (s := (Operator.bits .bt).signature)
    (b := .immediate value dst.size) rfl kind constant (Bool.and_false _) (fun _ => supported)
    (fun _ _ => supported) eip nofun
  have ruled : Signature.applyBinaryRule .bitIndex dst (.immediate value dst.size) =
      .ok (some dst, some (.immediate value dst.size)) := by
    simp only [Signature.applyBinaryRule, wide, Signature.matchSizes_eq]
    rw [if_neg (by decide), if_pos (.inr rfl)]
    rfl
  refine ⟨(some dst, some (.immediate value dst.size)), ?_⟩
  rw [withIndex, like, first]
  exact checked.trans ruled

theorem size_eq_of_tests (second : i.op2 = some (.register r)) : dst.size = r.size := by
  have like := signature_of_tests isBits tests
  exact valid.size_eq (like ▸ rfl) first second

/-- A constant of the signed value that a register has reads as the register. -/
theorem valueOf_index (second : i.op2 = some (.register r)) {p : Processor δ} {value : Word}
    (same : value.signed dst.size = (p.reg r).signed r.size) :
    p.valueOf (.immediate value dst.size) = p.reg r := by
  have wide := wideSize_of_tests valid isBits tests first
  have sizes := size_eq_of_tests valid isBits tests first second
  have known : (dst.size == 0) = false := beq_eq_false_iff_ne.mpr
    (Signature.ne_zero_of_isAccessSize (Signature.isAccessSize_of_wideSize wide))
  rw [Processor.valueOf, Operand.cut, known, if_neg Bool.false_ne_true]
  refine Word.signed_injective (Word.toNat_truncate_lt ..) (sizes ▸ p.toNat_reg_lt r) ?_
  rw [Word.signed, Word.toNat_truncate, Nat.mod_mod, ← Word.signed, same, sizes]

end Tests

/-- A test of a bit of memory with an index in a register tests one bit of a byte, which may lie
before or behind the operand. A constant index selects the same bit inside the operand, and in a
register it does so always. -/
theorem tests_bit_string [PortDevice δ] (valid : i.Validated) (isBits : i.op = .bits op)
    (tests : op.tests) (first : i.op1 = some dst) (second : i.op2 = some (.register r))
    (p : Processor δ) :
    let k := (p.reg r).signed r.size
    (∀ m, dst = .memory m →
      let address := p.addressOf m + Word.ofInt (k / 8)
      (¬ p.memory.inRange address 1 → i.execute.run p = .error (.invalidReadAddress address) p) ∧
      (p.memory.inRange address 1 →
        (∃ q, i.execute.run p = .ok () q ∧ p.TestsBit op address (k % 8).toNat q) ∧
        (0 ≤ k → k < Word.bits m.size → p.memory.inRange (p.addressOf m) m.size →
          ∀ value : Word, value.signed m.size = k →
            (i.withIndex dst value).execute.run p = i.execute.run p))) ∧
    (∀ s, dst = .register s → ∀ value : Word, value.signed s.size = k →
      (i.withIndex dst value).execute.run p = i.execute.run p) ∧
    ∀ value, (i.withIndex dst value).Validated := by
  intro k
  have wide := wideSize_of_tests valid isBits tests first
  have access := Signature.isAccessSize_of_wideSize wide
  have indexed {value : Word} (same : value.signed dst.size = k) :
      ((i.withIndex dst value).execute : Execution δ Unit).run p = (Execution.testOperandBit op dst
        ((p.reg r).toNat % (if dst.size = 4 then 32 else 16))).run p := by
    rw [execute_of_bits (i := i.withIndex dst value) isBits first rfl,
      Execution.bits_run_of_mask tests (.inr rfl) rfl,
      valueOf_index valid isBits tests first second same]
  rw [execute_of_bits isBits first second]
  refine ⟨?_, ?_, withIndex_validated valid isBits tests first⟩
  · rintro m rfl
    intro address
    rw [Execution.bits_run_of_string tests]
    refine ⟨Execution.testBitString_run_of_fault rfl, fun inside =>
      ⟨⟨_, Execution.testBitString_run tests rfl inside, ?_⟩, ?_⟩⟩
    · exact Processor.testsBit_testBitAt inside (by omega)
    · intro lower upper whole value same
      have sizes : m.size = r.size := size_eq_of_tests valid isBits tests first second
      rw [indexed same]
      exact (Execution.testBitString_run_of_within tests wide sizes ⟨lower, upper⟩ inside
        (Memory.readFault?_eq_none_iff.mpr ⟨whole, access⟩)).symm
  · rintro s rfl value same
    rw [indexed same, Execution.bits_run_of_mask tests (.inl rfl) rfl, Processor.valueOf]

/-- The third bit before a word is bit 5 of the byte before it, and bit 3 of the word is the one
that a constant selects. -/
theorem tests_bit_string_before :
    let m : MemoryOperand := { displacement := 1028, size := 4 }
    let i : Instruction :=
      { op := .bits .btc, op1 := some (.memory m), op2 := some (.register .eax) }
    let p (index : Int) := (.new 16 {} default : Processor Script).setReg .eax (Word.ofInt index)
    (∃ q, i.execute.run (p (-3)) = .ok () q ∧ q.memory.bitAt 1027 5 ∧ q.flags.carry = false) ∧
      (i.withIndex (.memory m) 3).execute.run (p 3) = i.execute.run (p 3) := by
  intro m i p
  have valid : i.Validated := ⟨(i.op1, i.op2), rfl⟩
  constructor
  · obtain ⟨inMemory, -, -⟩ := tests_bit_string valid rfl rfl rfl rfl (p (-3))
    obtain ⟨q, ran, tested⟩ := ((inMemory m rfl).2 (by decide +kernel)).1
    have before : (p (-3)).memory.bitAt 1027 5 = false := by decide +kernel
    have place : (p (-3)).addressOf m + Word.ofInt (((p (-3)).reg .eax).signed 4 / 8) = 1027 ∧
        (((p (-3)).reg .eax).signed 4 % 8).toNat = 5 := by decide +kernel
    have bit := tested.bit
    have flags := tested.flags
    rw [Register.size, place.1, place.2, before] at bit flags
    exact ⟨q, ran, bit, congrArg Flags.carry flags⟩
  · obtain ⟨inMemory, -, -⟩ := tests_bit_string valid rfl rfl rfl rfl (p 3)
    exact ((inMemory m rfl).2 (by decide +kernel)).2 (by decide +kernel) (by decide +kernel)
      (by decide +kernel) 3 (by decide +kernel)

end Instruction

end ReducedX86
