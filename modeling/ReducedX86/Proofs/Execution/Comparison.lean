import ReducedX86.Device.Script
import ReducedX86.Proofs.Execution.Operands
import ReducedX86.Proofs.Flags
import ReducedX86.Proofs.Instruction.Validation

/-!
Comparisons and what follows them.

A comparison subtracts and keeps only the flags. What a condition then asks of the flags is a
question about the two numbers: about their order, read without or with signs, or about their
difference. The three families of conditional instructions act on the answer.
-/
namespace ReducedX86

namespace Flags

theorem sign_afterSub (f : Flags) (x y : Word) (borrow : Bool) (size : Nat) :
    (f.afterSub x y (x - y) borrow size).sign ↔ ((x - y).truncate size).signed size < 0 :=
  Word.negative_iff_signed (Word.toNat_truncate_lt ..)

variable {size : Nat} {x y : Word} (f : Flags) (borrow : Bool)
  (small : x.toNat < Word.modulus size) (small' : y.toNat < Word.modulus size)

include small small'

/-- The difference that is looked at, as a number. -/
theorem toNat_difference :
    ((x - y).truncate size).toNat =
      if y.toNat ≤ x.toNat then x.toNat - y.toNat
      else x.toNat + Word.modulus size - y.toNat := by
  rw [Word.toNat_truncate, UInt32.toNat_sub]
  rcases Word.width_cases size with ⟨-, h⟩ | ⟨-, h⟩ | ⟨-, h⟩ <;> rw [h] at small small' ⊢ <;>
    split <;> omega

theorem zero_afterSub : (f.afterSub x y (x - y) borrow size).zero ↔ x = y := by
  have difference := toNat_difference small small'
  simp only [afterSub, withSignZero, Word.truncate_truncate, beq_iff_eq]
  rw [← UInt32.toNat_inj, ← UInt32.toNat_inj, difference, UInt32.toNat_zero]
  split <;> omega

theorem overflow_afterSub :
    (f.afterSub x y (x - y) borrow size).overflow ↔
      ¬ Word.FitsSigned (x.signed size - y.signed size) size := by
  have word : x - y = Word.ofInt (x.toNat - y.toNat) := by
    rw [Word.ofInt_sub, Word.ofInt_toNat, Word.ofInt_toNat]
  exact (describes_of_difference (c := 0) small small' (by decide) word (by simp) (by simp)
    rfl).overflow

/-- The sign of the difference tells the signed order, unless the difference overflows. -/
theorem less_afterSub :
    (f.afterSub x y (x - y) borrow size).sign ≠ (f.afterSub x y (x - y) borrow size).overflow ↔
      x.signed size < y.signed size := by
  have sign := f.sign_afterSub x y borrow size
  have overflow := f.overflow_afterSub borrow small small'
  rw [Word.signed_of_lt (Word.toNat_truncate_lt ..), toNat_difference small small'] at sign
  rw [ne_eq, Bool.eq_iff_iff, sign, overflow]
  rw [Word.FitsSigned, Word.signed_of_lt small, Word.signed_of_lt small']
  grind

end Flags

namespace Condition

/-- What the condition says of two numbers of a width that were compared. -/
def Compares (c : Condition) (size : Nat) (x y : Word) : Prop :=
  match c with
  | z => x = y
  | nz => x ≠ y
  | ae => y.toNat ≤ x.toNat
  | a => y.toNat < x.toNat
  | be => x.toNat ≤ y.toNat
  | b => x.toNat < y.toNat
  | ge => y.signed size ≤ x.signed size
  | g => y.signed size < x.signed size
  | le => x.signed size ≤ y.signed size
  | l => x.signed size < y.signed size
  | s => ((x - y).truncate size).signed size < 0
  | ns => 0 ≤ ((x - y).truncate size).signed size
  | o => ¬ Word.FitsSigned (x.signed size - y.signed size) size
  | no => Word.FitsSigned (x.signed size - y.signed size) size

theorem holds_afterSub {size : Nat} {x y : Word} (small : x.toNat < Word.modulus size)
    (small' : y.toNat < Word.modulus size) (f : Flags) (c : Condition) :
    c.holds (f.afterSub x y (x - y) (x < y) size) ↔ c.Compares size x y := by
  have carry : (f.afterSub x y (x - y) (x < y) size).carry ↔ x.toNat < y.toNat := decide_eq_true_iff
  have zero := f.zero_afterSub (x < y) small small'
  have sign := f.sign_afterSub x y (x < y) size
  have overflow := f.overflow_afterSub (x < y) small small'
  have less := f.less_afterSub (x < y) small small'
  have equal : x = y ↔ x.toNat = y.toNat := UInt32.toNat_inj.symm
  have equal_signed : x = y ↔ x.signed size = y.signed size :=
    ⟨fun same => by rw [same], Word.signed_injective small small'⟩
  cases c <;> simp only [holds, Compares] <;> grind

end Condition

namespace Execution

variable {δ : Type} {r : Processor δ} {c : Condition} {dst src : Operand} {other : Option Operand}

theorem conditionalJump_run (target : Word) :
    (conditionalJump c (some (.label target), other)).run r =
      .ok () (if c.holds r.flags then r.jumpTo target else r) := by
  apply Outcome.run_eq_ok
  cases holds : c.holds r.flags <;> simp [conditionalJump, holds, Processor.valueOf]

theorem conditionalMove_run (readable : r.readFault? src = none)
    (writable : r.writeFault? dst = none) :
    (conditionalMove c (some dst, some src)).run r =
      .ok () (if c.holds r.flags then r.put dst (r.valueOf src) else r) := by
  apply Outcome.run_eq_ok
  cases holds : c.holds r.flags <;> simp [conditionalMove, holds, readable, writable]

theorem conditionalSet_run (writable : r.writeFault? dst = none) :
    (conditionalSet c (some dst, other)).run r =
      .ok () (r.put dst (if c.holds r.flags then 1 else 0)) := by
  apply Outcome.run_eq_ok
  simp [conditionalSet, writable]

theorem compare_run (readable : r.readFault? dst = none) (readable' : r.readFault? src = none) :
    (arithmetic .cmp (some dst, some src)).run r =
      .ok () (r.withFlags (r.flags.afterSub (r.valueOf dst) (r.valueOf src)
        (r.valueOf dst - r.valueOf src) (r.valueOf dst < r.valueOf src) dst.size)) := by
  apply Outcome.run_eq_ok
  simp [arithmetic, binaryArithmetic, readable, readable']

end Execution

namespace Processor

variable {δ : Type} [PortDevice δ]

/-- The conditional instructions act on `r` as though the condition stood for `truth`. -/
structure Obeys (c : Condition) (truth : Prop) (r : Processor δ) : Prop where
  jump : ∀ (j : Instruction) (target : Word), j.op = .jump c → j.op1 = some (.label target) →
    (truth → j.execute.run r = .ok () (r.jumpTo target)) ∧
      (¬ truth → j.execute.run r = .ok () r)
  move : ∀ (j : Instruction) (dst src : Operand), j.Validated → j.op = .move c →
    j.op1 = some dst → j.op2 = some src → r.readFault? src = none →
      (truth → j.execute.run r = .ok () (r.put dst (r.valueOf src)) ∧
        (r.put dst (r.valueOf src)).valueOf dst = r.valueOf src) ∧
      (¬ truth → j.execute.run r = .ok () r)
  set : ∀ (j : Instruction) (dst : Operand), j.Validated → j.op = .set c → j.op1 = some dst →
    r.writeFault? dst = none →
      (truth → j.execute.run r = .ok () (r.put dst 1) ∧ (r.put dst 1).valueOf dst = 1) ∧
      (¬ truth → j.execute.run r = .ok () (r.put dst 0) ∧ (r.put dst 0).valueOf dst = 0)

theorem obeys_holds (c : Condition) (r : Processor δ) : r.Obeys c (c.holds r.flags) where
  jump j target isJump first := by
    have executes : (j.execute : Execution δ Unit) =
        Execution.conditionalJump c (some (.label target), j.op2) := by
      rw [Instruction.execute, isJump, first]
      rfl
    rw [executes, Execution.conditionalJump_run target]
    exact ⟨fun holds => by rw [if_pos holds], fun fails => by rw [if_neg fails]⟩
  move j dst src valid isMove first second readable := by
    have admitted := valid.kinds.1 dst first
    rw [isMove] at admitted
    obtain ⟨target, rfl⟩ := Operand.eq_register_of_kind (List.mem_singleton.mp admitted)
    have executes : (j.execute : Execution δ Unit) =
        Execution.conditionalMove c (some (.register target), some src) := by
      rw [Instruction.execute, isMove, first, second]
      rfl
    have same := valid.size_eq (by rw [isMove]; rfl) first second
    have widths := valid.haveWidths (by rw [isMove]; rfl)
    rw [second] at widths
    have copied :
        (r.put (.register target) (r.valueOf src)).valueOf (.register target) = r.valueOf src := by
      rw [valueOf_put rfl rfl, same, truncate_valueOf widths.2]
    rw [executes, Execution.conditionalMove_run readable rfl]
    exact ⟨fun holds => ⟨by rw [if_pos holds], copied⟩, fun fails => by rw [if_neg fails]⟩
  set j dst valid isSet first writable := by
    have place : dst.isPlace := by
      have admitted := valid.kinds.1 dst first
      rw [isSet] at admitted
      exact Operand.isPlace_of_kind admitted
    have byte := valid.size_of_byteDestination (by rw [isSet]; rfl) (by rw [isSet]; rfl) first
    have executes : (j.execute : Execution δ Unit) =
        Execution.conditionalSet c (some dst, j.op2) := by
      rw [Instruction.execute, isSet, first]
      rfl
    have stored (value : Word) : (r.put dst value).valueOf dst = value.truncate 1 := by
      rw [valueOf_put place (readFault?_of_writeFault? writable), byte]
    rw [executes, Execution.conditionalSet_run writable]
    exact ⟨fun holds => ⟨by rw [if_pos holds], stored 1⟩,
      fun fails => ⟨by rw [if_neg fails], stored 0⟩⟩

end Processor

namespace Instruction

variable {δ : Type} [PortDevice δ] {i : Instruction} {dst src : Operand} {p : Processor δ}

/-- After a comparison the conditional instructions go by the two numbers. -/
theorem comparison_decides (valid : i.Validated) (isCompare : i.op = .arithmetic .cmp)
    (first : i.op1 = some dst) (second : i.op2 = some src) (readable : p.readFault? dst = none)
    (readable' : p.readFault? src = none) :
    ∃ flags, i.execute.run p = .ok () (p.withFlags flags) ∧
      ∀ (c : Condition) (r : Processor δ), r.flags = flags →
        r.Obeys c (c.Compares dst.size (p.valueOf dst) (p.valueOf src)) := by
  have same := valid.size_eq (by rw [isCompare]; rfl) first second
  have widths := valid.haveWidths (by rw [isCompare]; rfl)
  rw [first, second] at widths
  have small : (p.valueOf dst).toNat < Word.modulus dst.size := by
    rw [← Processor.truncate_valueOf widths.1]
    exact Word.toNat_truncate_lt ..
  have small' : (p.valueOf src).toNat < Word.modulus dst.size := by
    rw [same, ← Processor.truncate_valueOf widths.2]
    exact Word.toNat_truncate_lt ..
  have executes : (i.execute : Execution δ Unit) =
      Execution.arithmetic .cmp (some dst, some src) := by
    rw [execute, isCompare, first, second]
    rfl
  rw [executes]
  refine ⟨_, Execution.compare_run readable readable', fun c r flags => ?_⟩
  rw [← Condition.holds_afterSub small small' p.flags c, ← flags]
  exact Processor.obeys_holds c r

/-- A byte of 128 is less than one as a signed number, and not below it. -/
theorem comparison_decides_minimum :
    let i : Instruction :=
      { op := .arithmetic .cmp, op1 := some (.register .al), op2 := some (.immediate 1 1) }
    let jump : Instruction := { op := .jump .l, op1 := some (.label 1048) }
    let move : Instruction :=
      { op := .move .l, op1 := some (.register .ecx), op2 := some (.register .edx) }
    let set : Instruction := { op := .set .b, op1 := some (.register .bl) }
    let p := (.new 16 {} default : Processor Script).setReg .al 0x80
    ∃ q, i.execute.run p = .ok () q ∧ jump.execute.run q = .ok () (q.jumpTo 1048) ∧
      move.execute.run q = .ok () (q.put (.register .ecx) (q.reg .edx)) ∧
        set.execute.run q = .ok () (q.put (.register .bl) 0) := by
  intro i jump move set p
  have valid : i.Validated := ⟨(i.op1, i.op2), rfl⟩
  have validMove : move.Validated := ⟨(move.op1, move.op2), rfl⟩
  have validSet : set.Validated := ⟨(set.op1, set.op2), rfl⟩
  obtain ⟨flags, ran, obeys⟩ := comparison_decides (p := p) valid rfl rfl rfl rfl rfl
  have less : (p.valueOf (.register .al)).signed 1 < (p.valueOf (.immediate 1 1)).signed 1 := by
    decide +kernel
  have notBelow : ¬ (p.valueOf (.register .al)).toNat < (p.valueOf (.immediate 1 1)).toNat := by
    decide +kernel
  have signedOrder := obeys .l (p.withFlags flags) rfl
  have order := obeys .b (p.withFlags flags) rfl
  refine ⟨_, ran, (signedOrder.jump jump 1048 rfl rfl).1 less, ?_, ?_⟩
  · exact ((signedOrder.move move _ _ validMove rfl rfl rfl rfl).1 less).1
  · exact ((order.set set _ validSet rfl rfl rfl).2 notBelow).1

end Instruction

end ReducedX86
