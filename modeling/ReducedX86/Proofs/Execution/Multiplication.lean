import ReducedX86.Device.Script
import ReducedX86.Proofs.Execution.Accumulator

/-!
Multiplication.

The accumulator pair receives the exact product, whatever the operand is a part of. Carry and
overflow are set when the high half is needed, which is found from the high half alone: without
signs it is needed unless it is zero, with signs unless all its bits are the same. A signed product
may then lie outside the range of the low half, by less than that range, and leave the two flags
clear.
-/
namespace ReducedX86

namespace WideOp

/-- The operands are read with signs. -/
def isSigned : WideOp → Bool
  | .imul | .idiv => true
  | .mul | .div => false

def isProduct : WideOp → Bool
  | .mul | .imul => true
  | .div | .idiv => false

end WideOp

namespace Word

variable {signed : Bool} {size : Nat} {v : Int}

/-- The high half of the number is zero, or has all bits set if there are signs. -/
def UniformHigh (signed : Bool) (v : Int) (size : Nat) : Prop :=
  (if signed then -(modulus size : Int) else 0) ≤ v ∧ v < modulus size

instance : Decidable (UniformHigh signed v size) := inferInstanceAs (Decidable (_ ∧ _))

/-- Without signs such a number fits the low half, and no other does. -/
theorem uniformHigh_unsigned : UniformHigh false v size ↔ Fits false v size := Iff.rfl

theorem Fits.uniformHigh (fits : Fits signed v size) : UniformHigh signed v size := by
  cases signed with
  | false => exact fits
  | true =>
      obtain ⟨lower, upper⟩ := fits
      refine ⟨?_, ?_⟩
      · rw [if_pos rfl]
        omega
      · omega

theorem high_ne_zero_eq (fits : FitsTwice false v size) :
    ((ofInt (v / modulus size)).truncate size != 0) = decide (¬ UniformHigh false v size) := by
  have high := toNat_truncate_ofInt (v / modulus size) size
  obtain ⟨lower, upper⟩ := fits
  rw [Bool.eq_iff_iff, bne_iff_ne, decide_eq_true_iff, ne_eq, ← UInt32.toNat_inj, UInt32.toNat_zero,
    UniformHigh, if_neg Bool.false_ne_true]
  rcases width_cases size with ⟨-, h⟩ | ⟨-, h⟩ | ⟨-, h⟩ <;> rw [h] at high upper ⊢ <;> omega

theorem high_mixed_eq (fits : FitsTwice true v size) :
    ((ofInt (v / modulus size)).truncate size != 0 &&
      (ofInt (v / modulus size)).truncate size != mask size) =
        decide (¬ UniformHigh true v size) := by
  have high := toNat_truncate_ofInt (v / modulus size) size
  obtain ⟨lower, upper⟩ := fits
  rw [Bool.eq_iff_iff, Bool.and_eq_true, bne_iff_ne, bne_iff_ne, decide_eq_true_iff, ne_eq, ne_eq,
    ← UInt32.toNat_inj, ← UInt32.toNat_inj, UInt32.toNat_zero, toNat_mask, UniformHigh, if_pos rfl]
  -- The high half is 0 or -1, and the sign of the low half does not come in.
  rcases width_cases size with ⟨-, h⟩ | ⟨-, h⟩ | ⟨-, h⟩ <;> rw [h] at high lower upper ⊢ <;> omega

end Word

namespace Processor

variable {δ : Type} {p : Processor δ} {op : WideOp} {src : Operand}

/-- The product of the operand and the accumulator. -/
def product (signed : Bool) (src : Operand) (p : Processor δ) : Int :=
  (p.valueOf src).number signed src.size * p.lowNumber signed src.size

/-- `p` after a product of the given width. -/
def afterProduct (signed : Bool) (size : Nat) (product : Int) (p : Processor δ) : Processor δ :=
  let wide := decide (¬ Word.UniformHigh signed product size)
  (p.withHalves size product (product / Word.modulus size)).withFlags
    { p.flags with carry := wide, overflow := wide }

theorem fitsTwice_product (signed : Bool) (access : Memory.isAccessSize src.size) :
    Word.FitsTwice signed (p.product signed src) src.size :=
  Word.fitsTwice_mul (Word.fits_number (toNat_valueOf_lt access))
    (Word.fits_number (toNat_reg_accumulator_lt src.size))

/-- `q` is `p` with the product of operand and accumulator in the accumulator pair. -/
structure Multiplies (op : WideOp) (src : Operand) (p q : Processor δ) : Prop where
  product : q.pairNumber op.isSigned src.size = p.product op.isSigned src
  carry : q.flags.carry ↔ ¬ Word.UniformHigh op.isSigned (p.product op.isSigned src) src.size
  overflow : q.flags.overflow = q.flags.carry
  lost : q.flags.carry → ¬ Word.Fits op.isSigned (p.product op.isSigned src) src.size
  unsigned : op.isSigned = false →
    (q.flags.carry ↔ ¬ Word.Fits false (p.product false src) src.size)
  elsewhere : ∃ low high, q = (p.withHalves src.size low high).withFlags
    { p.flags with carry := q.flags.carry, overflow := q.flags.overflow }

theorem multiplies_afterProduct (access : Memory.isAccessSize src.size) :
    p.Multiplies op src (p.afterProduct op.isSigned src.size (p.product op.isSigned src)) where
  product := pairNumber_withHalves (fitsTwice_product op.isSigned access)
  carry := decide_eq_true_iff
  overflow := rfl
  lost set fits := of_decide_eq_true set fits.uniformHigh
  unsigned plain := by
    rw [plain, ← Word.uniformHigh_unsigned]
    exact decide_eq_true_iff
  elsewhere := ⟨_, _, rfl⟩

end Processor

namespace Execution

variable {δ : Type} {p : Processor δ} {op : WideOp} {src : Operand} {other : Option Operand}

theorem outcome_setProduct {signed : Bool} {size : Nat} {v : Int} {isWide : Word → Bool}
    {done : Unit → Processor δ → Prop} {failed : Fault → Processor δ → Prop}
    (tells : isWide ((Word.ofInt (v / Word.modulus size)).truncate size) =
      decide (¬ Word.UniformHigh signed v size)) :
    Outcome (setProduct size v isWide) done failed p ↔ done () (p.afterProduct signed size v) := by
  simp only [setProduct, outcome_bind, outcome_setHalves, outcome_setFlags, tells]
  rfl

theorem product_run (isProduct : op.isProduct) (access : Memory.isAccessSize src.size)
    (readable : p.readFault? src = none) :
    (wide op (some src, other)).run p =
      .ok () (p.afterProduct op.isSigned src.size (p.product op.isSigned src)) := by
  have fits (signed : Bool) := p.fitsTwice_product signed access
  apply Outcome.run_eq_ok
  cases op with
  | div | idiv => cases isProduct
  | mul =>
      simp only [wide, multiply, outcome_bind, outcome_read, outcome_reg, readable, reduceCtorEq,
        false_implies, implies_true, true_and, true_implies]
      rw [Int.natCast_mul]
      exact (outcome_setProduct (Word.high_ne_zero_eq (fits false))).mpr rfl
  | imul =>
      simp only [wide, multiplySigned, outcome_bind, outcome_read, outcome_reg, readable,
        reduceCtorEq, false_implies, implies_true, true_and, true_implies]
      exact (outcome_setProduct (Word.high_mixed_eq (fits true))).mpr rfl

theorem wide_run_of_fault {f : Fault} (fault : p.readFault? src = some f) :
    (wide op (some src, other)).run p = .error f p := by
  apply Outcome.run_eq_error
  simp [wide, fault]

end Execution

namespace Instruction

variable {δ : Type} [PortDevice δ] {i : Instruction} {op : WideOp} {src : Operand} {p : Processor δ}

theorem Validated.isAccessSize_of_wide (valid : i.Validated) (isWide : i.op = .wide op)
    (first : i.op1 = some src) : Memory.isAccessSize src.size := by
  have widths := valid.haveWidths (by rw [isWide]; rfl)
  rw [first] at widths
  exact widths.1

theorem execute_of_wide (isWide : i.op = .wide op) (first : i.op1 = some src) :
    (i.execute : Execution δ Unit) = Execution.wide op (some src, i.op2) := by
  rw [execute, isWide, first]
  rfl

/-- A multiplication whose operand can be read leaves the exact product in the accumulator pair. -/
theorem product_exact (valid : i.Validated) (isWide : i.op = .wide op) (isProduct : op.isProduct)
    (first : i.op1 = some src) (p : Processor δ) :
    (∀ f, p.readFault? src = some f → i.execute.run p = .error f p) ∧
    (p.readFault? src = none → ∃ q, i.execute.run p = .ok () q ∧ p.Multiplies op src q) := by
  have access := valid.isAccessSize_of_wide isWide first
  rw [execute_of_wide isWide first]
  exact ⟨fun f fault => Execution.wide_run_of_fault fault, fun readable =>
    ⟨_, Execution.product_run isProduct access readable, Processor.multiplies_afterProduct access⟩⟩

/-- The product of 16 and 8 is no signed byte, and its high half is zero. -/
theorem product_exact_imul :
    let i : Instruction := { op := .wide .imul, op1 := some (.register .bl) }
    let p := ((.new 16 {} default : Processor Script).setReg .al 16).setReg .bl 8
    ∃ q, i.execute.run p = .ok () q ∧ q.pairNumber true 1 = 128 ∧ ¬ Word.Fits true 128 1 ∧
      q.flags.carry = false ∧ q.flags.overflow = false := by
  intro i p
  have valid : i.Validated := ⟨(i.op1, i.op2), rfl⟩
  have start : p.product true (.register .bl) = 128 := by decide +kernel
  obtain ⟨q, ran, multiplies⟩ := (product_exact valid rfl rfl rfl p).2 rfl
  have product := multiplies.product
  have carry := multiplies.carry
  have clear : q.flags.carry = false := by
    rw [← Bool.not_eq_true, carry]
    exact not_not_intro (start ▸ by decide)
  exact ⟨q, ran, product.trans start, by decide, clear, multiplies.overflow.trans clear⟩

end Instruction

end ReducedX86
