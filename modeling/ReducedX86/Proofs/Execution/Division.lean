import ReducedX86.Proofs.Execution.Multiplication

/-!
Division.

The number in the accumulator pair is divided, with its quotient truncated toward zero. Either both
halves receive the exact quotient and remainder, or the instruction fails and nothing has changed:
for a zero divisor, or a quotient outside the range of the width. What a multiplication made is
divided without a remainder.
-/
namespace ReducedX86

namespace Word

variable {signed : Bool} {size : Nat} {n d : Int}

theorem natAbs_tmod_lt (n : Int) (nonzero : d ≠ 0) : (n.tmod d).natAbs < d.natAbs := by
  rw [Int.natAbs_tmod]
  exact Nat.mod_lt _ (Int.natAbs_pos.mpr nonzero)

/-- A remainder fits where its divisor does. -/
theorem fits_tmod (fits : Fits signed d size) (nonzero : d ≠ 0)
    (nonnegative : signed = false → 0 ≤ n) : Fits signed (n.tmod d) size := by
  have smaller := natAbs_tmod_lt n nonzero
  cases signed with
  | false =>
      obtain ⟨lower, upper⟩ := fits
      have remains := Int.tmod_nonneg d (nonnegative rfl)
      exact ⟨remains, by omega⟩
  | true =>
      obtain ⟨lower, upper⟩ := fits
      exact ⟨by omega, by omega⟩

end Word

namespace Processor

variable {δ : Type} {p : Processor δ} {signed : Bool} {op : WideOp} {src : Operand} {d : Int}

/-- `p` after a division by `d`. -/
def afterDivision (signed : Bool) (size : Nat) (d : Int) (p : Processor δ) : Processor δ :=
  p.withHalves size ((p.pairNumber signed size).tdiv d) ((p.pairNumber signed size).tmod d)

theorem lowNumber_withHalves {size : Nat} {low : Int} (fits : Word.Fits signed low size)
    (high : Int) : (p.withHalves size low high).lowNumber signed size = low := by
  rw [lowNumber, reg_accumulator_withHalves, Word.number_truncate_ofInt fits]

theorem highNumber_withHalves {size : Nat} {high : Int} (fits : Word.Fits signed high size)
    (low : Int) : (p.withHalves size low high).highNumber signed size = high := by
  rw [highNumber, reg_highHalf_withHalves, Word.number_truncate_ofInt fits]

/-- `q` is `p` with the quotient of the accumulator pair by `d` in the low half of the pair and the
remainder in the high half. -/
structure Divides (signed : Bool) (size : Nat) (d : Int) (p q : Processor δ) : Prop where
  quotient : q.lowNumber signed size = (p.pairNumber signed size).tdiv d
  identity : p.pairNumber signed size = q.lowNumber signed size * d + q.highNumber signed size
  smaller : (q.highNumber signed size).natAbs < d.natAbs
  sign : q.highNumber signed size = 0 ∨
    (q.highNumber signed size).sign = (p.pairNumber signed size).sign
  elsewhere : ∃ low high, q = p.withHalves size low high

theorem pairNumber_nonneg (size : Nat) : 0 ≤ p.pairNumber false size := Int.natCast_nonneg _

theorem divides_afterDivision {size : Nat} (fits : Word.Fits signed d size) (nonzero : d ≠ 0)
    (fits' : Word.Fits signed ((p.pairNumber signed size).tdiv d) size) :
    p.Divides signed size d (p.afterDivision signed size d) := by
  have remains : Word.Fits signed ((p.pairNumber signed size).tmod d) size :=
    Word.fits_tmod fits nonzero fun plain => plain ▸ pairNumber_nonneg size
  have low := lowNumber_withHalves (p := p) fits' ((p.pairNumber signed size).tmod d)
  have high := highNumber_withHalves (p := p) remains ((p.pairNumber signed size).tdiv d)
  refine ⟨low, ?_, ?_, ?_, _, _, rfl⟩
  all_goals rw [afterDivision, high]
  · rw [low, Int.tdiv_mul_add_tmod]
  · exact Word.natAbs_tmod_lt _ nonzero
  · rw [Int.sign_tmod]
    split
    · rename_i divides
      exact .inl (Int.tmod_eq_zero_of_dvd divides)
    · exact .inr rfl

end Processor

namespace Execution

variable {δ : Type} {p : Processor δ} {op : WideOp} {src : Operand} {other : Option Operand}

/-- How a division of `p` by `d` has to end. -/
def DivisionEnds (signed : Bool) (size : Nat) (d : Int) (done : Unit → Processor δ → Prop)
    (failed : Fault → Processor δ → Prop) (p : Processor δ) : Prop :=
  let fits := Word.Fits signed ((p.pairNumber signed size).tdiv d) size
  (d = 0 → failed .divisionByZero p) ∧
    (d ≠ 0 → (¬ fits → failed .divisionOverflow p) ∧
      (fits → done () (p.afterDivision signed size d)))

section Outcome

variable {failed : Fault → Processor δ → Prop} {done : Unit → Processor δ → Prop} {size : Nat}
  {a : Word} (small : a.toNat < Word.modulus size)

include small

theorem outcome_divide :
    Outcome (divide size a) done failed p ↔
      DivisionEnds false size (a.number false size) done failed p := by
  have positive := Word.one_lt_modulus size
  have fits : (Word.mask size).toNat < p.pair size / a.toNat ↔
      ¬ Word.Fits false ((p.pairNumber false size).tdiv a.toNat) size := by
    rw [Processor.pairNumber, Word.doubleNumber, if_neg Bool.false_ne_true, ← Int.ofNat_tdiv,
      Word.toNat_mask, Word.Fits, if_neg Bool.false_ne_true, Word.FitsUnsigned]
    generalize p.pair size / a.toNat = quotient
    omega
  have halves : p.withHalves size (p.pair size / a.toNat : Nat) (p.pair size % a.toNat : Nat) =
      p.afterDivision false size a.toNat := by
    rw [Int.ofNat_tdiv, Int.ofNat_tmod]
    rfl
  rw [DivisionEnds, ne_eq, Word.number_eq_zero_iff small]
  simp only [divide, outcome_bind, outcome_ite, outcome_throw, outcome_dividend, outcome_setHalves,
    fits, not_not, halves]
  rfl

theorem outcome_divideSigned :
    Outcome (divideSigned size a) done failed p ↔
      DivisionEnds true size (a.number true size) done failed p := by
  have even := Word.two_dvd_modulus size
  have fits (v : Int) : ((Word.modulus size / 2 : Nat) : Int) ≤ v ∨
      v < -((Word.modulus size / 2 : Nat) : Int) ↔ ¬ Word.Fits true v size := by
    rw [Word.Fits, if_pos rfl, Word.FitsSigned]
    omega
  rw [DivisionEnds, ne_eq, Word.number_eq_zero_iff small]
  simp only [divideSigned, outcome_bind, outcome_ite, outcome_throw, outcome_dividend,
    outcome_setHalves, fits, not_not]
  rfl

end Outcome

section Run

variable (division : op.isProduct = false) (access : Memory.isAccessSize src.size)
  (readable : p.readFault? src = none)

include division access readable

theorem outcome_division {done : Unit → Processor δ → Prop}
    {failed : Fault → Processor δ → Prop} :
    Outcome (wide op (some src, other)) done failed p ↔
      DivisionEnds op.isSigned src.size ((p.valueOf src).number op.isSigned src.size) done failed
        p := by
  have small := Processor.toNat_valueOf_lt (p := p) access
  simp only [wide, outcome_bind, outcome_read, readable, reduceCtorEq, false_implies, implies_true,
    true_and, true_implies]
  cases op with
  | mul | imul => cases division
  | div => exact outcome_divide small
  | idiv => exact outcome_divideSigned small

theorem division_run_of_zero (zero : (p.valueOf src).number op.isSigned src.size = 0) :
    (wide op (some src, other)).run p = .error .divisionByZero p := by
  apply Outcome.run_eq_error
  rw [outcome_division division access readable]
  exact ⟨fun _ => ⟨rfl, rfl⟩, fun nonzero => absurd zero nonzero⟩

variable {d : Int} (divisor : d = (p.valueOf src).number op.isSigned src.size) (nonzero : d ≠ 0)

include divisor nonzero

theorem division_run_of_large
    (large : ¬ Word.Fits op.isSigned ((p.pairNumber op.isSigned src.size).tdiv d) src.size) :
    (wide op (some src, other)).run p = .error .divisionOverflow p := by
  apply Outcome.run_eq_error
  rw [outcome_division division access readable, ← divisor]
  exact ⟨fun zero => absurd zero nonzero, fun _ => ⟨fun _ => ⟨rfl, rfl⟩, fun fits => large fits⟩⟩

theorem division_run
    (fits : Word.Fits op.isSigned ((p.pairNumber op.isSigned src.size).tdiv d) src.size) :
    (wide op (some src, other)).run p = .ok () (p.afterDivision op.isSigned src.size d) := by
  apply Outcome.run_eq_ok
  rw [outcome_division division access readable, ← divisor]
  exact ⟨fun zero => absurd zero nonzero, fun _ => ⟨fun large => large fits, fun _ => ⟨rfl, rfl⟩⟩⟩

/-- The product of a number and the accumulator, divided by that number, is the accumulator. -/
theorem division_run_of_product {back : WideOp} {o : Processor δ} {other' : Option Operand}
    (isProduct : back.isProduct) (same : back.isSigned = op.isSigned)
    (ran : (wide back (some src, other')).run o = .ok () p)
    (kept : p.valueOf src = o.valueOf src) :
    ∃ q, (wide op (some src, other)).run p = .ok () q ∧
      q.reg (.accumulator src.size) = o.reg (.accumulator src.size) ∧
      q.reg (highHalf src.size) = 0 := by
  have before : o.readFault? src = none := by
    cases fault : o.readFault? src with
    | none => rfl
    | some f =>
        rw [wide_run_of_fault fault] at ran
        cases ran
  have small := Processor.toNat_reg_accumulator_lt (p := o) src.size
  have dividend : p.pairNumber op.isSigned src.size = d * o.lowNumber op.isSigned src.size := by
    rw [product_run isProduct access before] at ran
    cases ran
    rw [divisor, kept, ← same]
    exact (Processor.multiplies_afterProduct access).product
  have quotient : (p.pairNumber op.isSigned src.size).tdiv d =
      o.lowNumber op.isSigned src.size := by
    rw [dividend, Int.mul_tdiv_cancel_left _ nonzero]
  have remainder : (p.pairNumber op.isSigned src.size).tmod d = 0 := by
    rw [dividend, Int.mul_tmod_right]
  have fits : Word.Fits op.isSigned (o.lowNumber op.isSigned src.size) src.size :=
    Word.fits_number small
  refine ⟨_, division_run division access readable divisor nonzero (quotient ▸ fits), ?_, ?_⟩
  · rw [Processor.afterDivision, Processor.reg_accumulator_withHalves, quotient]
    exact Word.number_injective (Word.toNat_truncate_lt ..) small (Word.number_truncate_ofInt fits)
  · rw [Processor.afterDivision, Processor.reg_highHalf_withHalves, remainder]
    exact UInt32.zero_and

end Run

end Execution

namespace Instruction

variable {δ : Type} [PortDevice δ] {i : Instruction} {op : WideOp} {src : Operand}

open Execution

/-- A division is exact or leaves the processor as it was, and it undoes a multiplication. -/
theorem division_exact (valid : i.Validated) (isWide : i.op = .wide op)
    (division : op.isProduct = false) (first : i.op1 = some src) (p : Processor δ) :
    let n := p.pairNumber op.isSigned src.size
    let d := (p.valueOf src).number op.isSigned src.size
    (∀ f, p.readFault? src = some f → i.execute.run p = .error f p) ∧
    (p.readFault? src = none →
      (d = 0 → i.execute.run p = .error .divisionByZero p) ∧
      (d ≠ 0 → ¬ Word.Fits op.isSigned (n.tdiv d) src.size →
        i.execute.run p = .error .divisionOverflow p) ∧
      (d ≠ 0 → Word.Fits op.isSigned (n.tdiv d) src.size →
        ∃ q, i.execute.run p = .ok () q ∧ p.Divides op.isSigned src.size d q) ∧
      ∀ (k : Instruction) (back : WideOp) (o : Processor δ), k.op = .wide back → back.isProduct →
        back.isSigned = op.isSigned → k.op1 = some src → k.execute.run o = .ok () p →
        p.valueOf src = o.valueOf src → d ≠ 0 →
          ∃ q, i.execute.run p = .ok () q ∧
            q.reg (.accumulator src.size) = o.reg (.accumulator src.size) ∧
            q.reg (highHalf src.size) = 0) := by
  have access := valid.isAccessSize_of_wide isWide first
  rw [execute_of_wide isWide first]
  intro n d
  refine ⟨fun f fault => wide_run_of_fault fault,
    fun readable => ⟨?zero, ?overflow, ?success, ?undoes⟩⟩
  case zero => exact division_run_of_zero division access readable
  case overflow => exact division_run_of_large division access readable rfl
  case success =>
    intro nonzero fits
    have bound : Word.Fits op.isSigned d src.size :=
      Word.fits_number (Processor.toNat_valueOf_lt access)
    exact ⟨_, division_run division access readable rfl nonzero fits,
      Processor.divides_afterDivision bound nonzero fits⟩
  case undoes =>
    intro k back o isWide' isProduct same first' ran kept nonzero
    rw [execute_of_wide isWide' first'] at ran
    exact division_run_of_product division access readable rfl nonzero isProduct same ran kept

/-- As a signed byte, 0xF9 is -7; multiplied by 2 and divided by 2 it is there again. -/
theorem division_exact_idiv :
    let k : Instruction := { op := .wide .imul, op1 := some (.register .cl) }
    let i : Instruction := { op := .wide .idiv, op1 := some (.register .cl) }
    let o := ((.new 16 {} default : Processor Script).setReg .al 0xF9).setReg .cl 2
    ∃ p q, k.execute.run o = .ok () p ∧ p.pairNumber true 1 = -14 ∧ i.execute.run p = .ok () q ∧
      q.reg .al = 0xF9 ∧ q.reg .ah = 0 := by
  intro k i o
  have valid : i.Validated := ⟨(i.op1, i.op2), rfl⟩
  let p := o.afterProduct true 1 (o.product true (.register .cl))
  have ran : k.execute.run o = .ok () p := by
    rw [execute_of_wide rfl rfl]
    exact product_run rfl rfl rfl
  have pair : p.pairNumber true 1 = -14 := by decide +kernel
  have divisor : p.valueOf (.register .cl) = 2 ∧ o.valueOf (.register .cl) = 2 := by decide +kernel
  obtain ⟨-, ends⟩ := division_exact valid rfl rfl rfl p
  obtain ⟨-, -, -, undoes⟩ := ends rfl
  obtain ⟨q, ran', low, high⟩ := undoes k .imul o rfl rfl rfl rfl ran
    (divisor.1.trans divisor.2.symm) (by rw [divisor.1]; decide)
  have start : o.reg .al = 0xF9 := by decide +kernel
  exact ⟨p, q, ran, pair, ran', low.trans start, high⟩

end Instruction

end ReducedX86
