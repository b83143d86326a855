import Mathlib.Logic.Function.Iterate
import ReducedX86.Device.Script
import ReducedX86.Proofs.Execution.Operands
import ReducedX86.Proofs.Instruction.Validation

/-!
Shifts and rotations as single steps.

The operand after a shift is given by a formula in the count. A shift by `n` is nevertheless the
same as `n` shifts by one, also where the count exceeds the width; only the overflow flag, which
shifts by one alone compute, may differ. A rotation turns the bits of a wheel, which has one place
more when it goes through the carry; turns add up around it, so that a rotation is undone by the
one the other way.
-/
namespace ReducedX86

namespace Execution

theorem testBit_beyond {v w i : Nat} (fits : v < 2 ^ w) (above : w ≤ i) : v.testBit i = false :=
  Nat.testBit_lt_two_pow (Nat.lt_of_lt_of_le fits (Nat.pow_le_pow_right (by decide) above))

theorem testBit_rotateLeft {v n w i : Nat} (fits : v < 2 ^ w) (le : n ≤ w) :
    (rotateLeft v n w).testBit i =
      (decide (i < w) && if n ≤ i then v.testBit (i - n) else v.testBit (i + w - n)) := by
  have low : v >>> (w - n) < 2 ^ n := by
    rw [Nat.shiftRight_eq_div_pow]
    apply Nat.div_lt_of_lt_mul
    rwa [← Nat.pow_add, Nat.sub_add_cancel le]
  rw [rotateLeft, Nat.shiftLeft_add_eq_or_of_lt low, Nat.one_shiftLeft, Nat.testBit_mod_two_pow,
    Nat.testBit_or, Nat.testBit_shiftLeft, Nat.testBit_shiftRight]
  by_cases inside : i < w
  · by_cases moved : n ≤ i
    · have above : v.testBit (w - n + i) = false := testBit_beyond fits (by omega)
      simp [inside, moved, above]
    · simp [inside, moved, show w - n + i = i + w - n by omega]
  · simp [inside]

theorem rotateLeft_lt (v n w : Nat) : rotateLeft v n w < 2 ^ w := by
  rw [rotateLeft, Nat.one_shiftLeft]
  exact Nat.mod_lt _ (Nat.two_pow_pos w)

/-- Turns add up around the width. -/
theorem rotateLeft_rotateLeft {v m n k w : Nat} (fits : v < 2 ^ w) (hm : m ≤ w) (hn : n ≤ w)
    (hk : k ≤ w) (sum : m + n = k ∨ m + n = k + w) :
    rotateLeft (rotateLeft v m w) n w = rotateLeft v k w := by
  apply Nat.eq_of_testBit_eq
  intro i
  rw [testBit_rotateLeft (rotateLeft_lt v m w) hn, testBit_rotateLeft fits hk,
    testBit_rotateLeft fits hm, testBit_rotateLeft fits hm]
  by_cases inside : i < w
  · grind [testBit_beyond]
  · simp [inside]

theorem rotateLeft_zero {v w : Nat} (fits : v < 2 ^ w) : rotateLeft v 0 w = v := by
  apply Nat.eq_of_testBit_eq
  intro i
  rw [testBit_rotateLeft fits (Nat.zero_le w)]
  by_cases inside : i < w
  · simp [inside]
  · simp [inside, testBit_beyond fits (Nat.le_of_not_lt inside)]

/-- What an instruction shifts: an operand, and the carry beside it. -/
@[ext] structure Shiftable where
  operand : Word
  carry : Bool
  deriving DecidableEq, Repr

/-- Operand and carry after a shift by `n`; a shift by zero changes nothing. -/
def shiftedBy (op : ShiftOp) (size n : Nat) (s : Shiftable) : Shiftable :=
  if n = 0 then s
  else
    let (result, carry) := shifted op s.operand n size s.carry
    ⟨result.truncate size, carry⟩

section Steps

variable {op : ShiftOp} {size n : Nat} {s : Shiftable}

theorem shiftedBy_zero : shiftedBy op size 0 s = s := rfl

theorem shiftedBy_of_ne_zero (positive : n ≠ 0) :
    shiftedBy op size n s =
      ⟨(shifted op s.operand n size s.carry).1.truncate size,
        (shifted op s.operand n size s.carry).2⟩ := by
  rw [shiftedBy, if_neg positive]

theorem fits_shiftedBy (op : ShiftOp) (n : Nat)
    (fits : s.operand.toNat < Word.modulus size) :
    (shiftedBy op size n s).operand.toNat < Word.modulus size := by
  unfold shiftedBy
  split
  · exact fits
  · exact Word.toNat_truncate_lt ..

theorem shl_succ (positive : n ≠ 0) :
    shiftedBy .shl size (n + 1) s = shiftedBy .shl size 1 (shiftedBy .shl size n s) := by
  simp only [shiftedBy_of_ne_zero, positive, ne_eq, not_false_eq_true, Nat.add_one_ne_zero, shifted]
  congr 1
  · apply UInt32.toNat_inj.mp
    simp only [Word.toNat_truncate_ofNat]
    rw [Nat.shiftLeft_add, Nat.shiftLeft_eq _ 1, Nat.shiftLeft_eq _ 1, Nat.mod_mul_mod]
  · have width : 1 ≤ Word.bits size := Word.bits_pos size
    have inside : Word.bits size - 1 < Word.bits size := by omega
    have index : Word.bits size - 1 - n = Word.bits size - (n + 1) := by omega
    have counted : (n ≤ Word.bits size - 1) = (n + 1 ≤ Word.bits size) := by
      rw [eq_iff_iff]
      omega
    simp only [Word.toNat_truncate_ofNat, Word.modulus_eq_two_pow, Nat.testBit_shiftLeft,
      Nat.testBit_mod_two_pow]
    simp [width, inside, index, counted]

theorem shr_succ (fits : s.operand.toNat < Word.modulus size) (positive : n ≠ 0) :
    shiftedBy .shr size (n + 1) s = shiftedBy .shr size 1 (shiftedBy .shr size n s) := by
  have shorter : s.operand.toNat >>> n < Word.modulus size :=
    Nat.lt_of_le_of_lt (Nat.shiftRight_le ..) fits
  simp only [shiftedBy_of_ne_zero, positive, ne_eq, not_false_eq_true, Nat.add_one_ne_zero, shifted]
  simp only [Word.toNat_truncate_ofNat, Nat.mod_eq_of_lt shorter, Nat.shiftRight_add,
    Nat.testBit_shiftRight, Nat.add_sub_cancel, Nat.sub_self, Nat.add_zero]

theorem fitsSigned_shiftRight (w : Word) (n size : Nat) :
    Word.FitsSigned (w.signed size >>> n) size := by
  induction n with
  | zero => simpa using Word.fitsSigned_signed w size
  | succ n ih =>
      rw [Word.FitsSigned] at ih ⊢
      rw [Int.shiftRight_add, Int.shiftRight_eq_div_pow _ 1]
      omega

theorem sar_succ (positive : n ≠ 0) :
    shiftedBy .sar size (n + 1) s = shiftedBy .sar size 1 (shiftedBy .sar size n s) := by
  have kept := Word.signed_truncate_ofInt (fitsSigned_shiftRight s.operand n size)
  simp only [shiftedBy_of_ne_zero, positive, ne_eq, not_false_eq_true, Nat.add_one_ne_zero, shifted,
    kept, Int.shiftRight_add, Nat.add_sub_cancel, Nat.sub_self, Int.shiftRight_zero]

/-- The rotation goes through the carry. -/
def throughCarry : ShiftOp → Bool
  | .rcl | .rcr => true
  | _ => false

/-- How many bits the rotation turns. -/
def places (op : ShiftOp) (size : Nat) : Nat :=
  if throughCarry op then Word.bits size + 1 else Word.bits size

/-- The bits that the rotation turns, as a number. -/
def wheel (op : ShiftOp) (size : Nat) (s : Shiftable) : Nat :=
  if throughCarry op then s.carry.toNat <<< Word.bits size + s.operand.toNat else s.operand.toNat

/-- How far to the left the rotation by `n` turns. -/
def turn (op : ShiftOp) (size n : Nat) : Nat :=
  match op with
  | .ror | .rcr => (places op size - n % places op size) % places op size
  | _ => n % places op size

theorem wheel_lt (fits : s.operand.toNat < Word.modulus size) :
    wheel op size s < 2 ^ places op size := by
  rw [Word.modulus_eq_two_pow] at fits
  rw [wheel, places]
  split
  · rw [Nat.pow_succ, Nat.shiftLeft_eq]
    cases s.carry <;> simp <;> omega
  · exact fits

/-- The operand is in the low bits of the wheel. -/
theorem wheel_mod (op : ShiftOp) (fits : s.operand.toNat < Word.modulus size) :
    wheel op size s % 2 ^ Word.bits size = s.operand.toNat := by
  rw [Word.modulus_eq_two_pow] at fits
  rw [wheel]
  split
  · rw [Nat.shiftLeft_eq, Nat.mul_comm, Nat.mul_add_mod, Nat.mod_eq_of_lt fits]
  · exact Nat.mod_eq_of_lt fits

theorem testBit_wheel (through : throughCarry op) (fits : s.operand.toNat < Word.modulus size) :
    (wheel op size s).testBit (Word.bits size) = s.carry := by
  rw [Word.modulus_eq_two_pow] at fits
  rw [wheel, if_pos through, Nat.shiftLeft_add_eq_or_of_lt fits, Nat.testBit_or,
    Nat.testBit_lt_two_pow fits, Nat.testBit_shiftLeft]
  cases s.carry <;> simp

/-- A number is its top bit and the bits below. -/
theorem top_add_low {r w : Nat} (fits : r < 2 ^ (w + 1)) :
    (r.testBit w).toNat <<< w + r % 2 ^ w = r := by
  have top : r / 2 ^ w < 2 := Nat.div_lt_of_lt_mul (by rwa [← Nat.pow_succ])
  have bit : (r.testBit w).toNat = r / 2 ^ w := by
    rw [Nat.testBit_eq_decide_div_mod_eq]
    rcases Nat.lt_succ_iff_lt_or_eq.mp top with zero | one
    · simp [Nat.lt_one_iff.mp zero]
    · simp [one]
  rw [bit, Nat.shiftLeft_eq, Nat.mul_comm, Nat.div_add_mod]

theorem wheel_shiftedBy (rotates : isRotation op) (fits : s.operand.toNat < Word.modulus size) :
    wheel op size (shiftedBy op size n s) =
      rotateLeft (wheel op size s) (turn op size n) (places op size) := by
  by_cases zero : n = 0
  · have still : turn op size n = 0 := by
      subst zero
      unfold turn
      split <;> simp
    rw [still, rotateLeft_zero (wheel_lt fits), zero, shiftedBy_zero]
  · have bound := rotateLeft_lt (wheel op size s) (turn op size n) (places op size)
    have low (r : Nat) :
        (Word.truncate (UInt32.ofNat (r % 1 <<< Word.bits size)) size).toNat =
          r % 2 ^ Word.bits size := by
      rw [Word.toNat_truncate_ofNat, Nat.one_shiftLeft, Word.modulus_eq_two_pow, Nat.mod_mod]
    rw [shiftedBy_of_ne_zero zero]
    cases op with
    | shl | shr | sar => cases rotates
    | rol | ror =>
        refine (Word.toNat_truncate_ofNat ..).trans (Nat.mod_eq_of_lt ?_)
        rw [Word.modulus_eq_two_pow]
        exact bound
    | rcl | rcr => exact (congrArg (_ + ·) (low _)).trans (top_add_low bound)

theorem turn_le (op : ShiftOp) (size n : Nat) : turn op size n ≤ places op size := by
  have positive : 0 < places op size := by
    have width := Word.bits_pos size
    unfold places
    split <;> omega
  unfold turn
  split <;> exact (Nat.mod_lt _ positive).le

theorem turn_succ (op : ShiftOp) (size n : Nat) :
    turn op size n + turn op size 1 = turn op size (n + 1) ∨
      turn op size n + turn op size 1 = turn op size (n + 1) + places op size := by
  unfold turn places
  rcases Word.width_cases size with ⟨width, -⟩ | ⟨width, -⟩ | ⟨width, -⟩ <;> rw [width] <;>
    cases op <;> simp only [throughCarry] <;> grind

/-- A rotation leaves in the carry the bit that it turned last. -/
theorem carry_shiftedBy (rotates : isRotation op) (apart : throughCarry op = false)
    (positive : n ≠ 0) (fits : s.operand.toNat < Word.modulus size) :
    (shiftedBy op size n s).carry =
      (shiftedBy op size n s).operand.toNat.testBit
        (if op = .rol then 0 else Word.bits size - 1) := by
  have turned := wheel_shiftedBy (n := n) rotates fits
  cases op with
  | shl | shr | sar => cases rotates
  | rcl | rcr => cases apart
  | rol | ror =>
      simp only [wheel, throughCarry, Bool.false_eq_true, if_false] at turned
      rw [turned, shiftedBy_of_ne_zero positive]
      rfl

theorem operand_of_wheel {t : Shiftable} (fits : s.operand.toNat < Word.modulus size)
    (fits' : t.operand.toNat < Word.modulus size) (same : wheel op size s = wheel op size t) :
    s.operand = t.operand := by
  apply UInt32.toNat_inj.mp
  rw [← wheel_mod op fits, same, wheel_mod op fits']

theorem carry_of_wheel {t : Shiftable} (through : throughCarry op)
    (fits : s.operand.toNat < Word.modulus size) (fits' : t.operand.toNat < Word.modulus size)
    (same : wheel op size s = wheel op size t) : s.carry = t.carry := by
  rw [← testBit_wheel through fits, same, testBit_wheel through fits']

theorem rotation_succ (rotates : isRotation op) (fits : s.operand.toNat < Word.modulus size) :
    shiftedBy op size (n + 1) s = shiftedBy op size 1 (shiftedBy op size n s) := by
  have once := fits_shiftedBy op n fits
  have left := fits_shiftedBy op (n + 1) fits
  have right := fits_shiftedBy op 1 once
  have turned : wheel op size (shiftedBy op size (n + 1) s) =
      wheel op size (shiftedBy op size 1 (shiftedBy op size n s)) := by
    rw [wheel_shiftedBy rotates fits, wheel_shiftedBy rotates once, wheel_shiftedBy rotates fits,
      rotateLeft_rotateLeft (wheel_lt fits) (turn_le ..) (turn_le ..) (turn_le ..) (turn_succ ..)]
  have operand := operand_of_wheel left right turned
  have carry : (shiftedBy op size (n + 1) s).carry =
      (shiftedBy op size 1 (shiftedBy op size n s)).carry := by
    cases through : throughCarry op with
    | true => exact carry_of_wheel through left right turned
    | false =>
        rw [carry_shiftedBy rotates through n.succ_ne_zero fits,
          carry_shiftedBy rotates through Nat.one_ne_zero once, operand]
  exact Shiftable.ext operand carry

/-- To shift by one more is to shift once more by one. -/
theorem shiftedBy_succ (fits : s.operand.toNat < Word.modulus size) (n : Nat) :
    shiftedBy op size (n + 1) s = shiftedBy op size 1 (shiftedBy op size n s) := by
  by_cases zero : n = 0
  · rw [zero, shiftedBy_zero]
  · cases op with
    | shl => exact shl_succ zero
    | shr => exact shr_succ fits zero
    | sar => exact sar_succ zero
    | rol | ror | rcl | rcr => exact rotation_succ rfl fits

/-- The rotation the other way. -/
def counterRotation? : ShiftOp → Option ShiftOp
  | .rol => some .ror
  | .ror => some .rol
  | .rcl => some .rcr
  | .rcr => some .rcl
  | .shl | .shr | .sar => none

theorem turn_counterRotation {back : ShiftOp} (counter : counterRotation? op = some back)
    (size n : Nat) :
    turn op size n + turn back size n = 0 ∨
      turn op size n + turn back size n = 0 + places op size := by
  unfold turn places
  rcases Word.width_cases size with ⟨width, -⟩ | ⟨width, -⟩ | ⟨width, -⟩ <;> rw [width] <;>
    cases op <;> cases counter <;> simp only [throughCarry] <;> grind

theorem shiftedBy_counterRotation {back : ShiftOp} (counter : counterRotation? op = some back)
    (fits : s.operand.toNat < Word.modulus size) (n : Nat) :
    (shiftedBy back size n (shiftedBy op size n s)).operand = s.operand ∧
      (throughCarry op → (shiftedBy back size n (shiftedBy op size n s)).carry = s.carry) := by
  have ⟨rotates, rotates', through⟩ :
      isRotation op ∧ isRotation back ∧ throughCarry back = throughCarry op := by
    cases op <;> cases counter <;> decide
  have once := fits_shiftedBy op n fits
  have twice := fits_shiftedBy back n once
  have same_wheel (t : Shiftable) : wheel back size t = wheel op size t := by
    rw [wheel, wheel, through]
  have same_places : places back size = places op size := by rw [places, places, through]
  have restored :
      wheel op size (shiftedBy back size n (shiftedBy op size n s)) = wheel op size s := by
    rw [← same_wheel, wheel_shiftedBy rotates' once, same_wheel, same_places,
      wheel_shiftedBy rotates fits, rotateLeft_rotateLeft (wheel_lt fits) (turn_le ..)
        (same_places ▸ turn_le back size n) (Nat.zero_le _) (turn_counterRotation counter size n),
      rotateLeft_zero (wheel_lt fits)]
  exact ⟨operand_of_wheel twice fits restored, fun is => carry_of_wheel is twice fits restored⟩

end Steps

/-- Runs an action `n` times. -/
def times {δ : Type} (x : Execution δ Unit) : Nat → Execution δ Unit
  | 0 => pure ()
  | n + 1 => do
      x
      times x n

theorem times_run {δ : Type} {x : Execution δ Unit} {f : Processor δ → Processor δ}
    (Ready : Processor δ → Prop) (step : ∀ q, Ready q → x.run q = .ok () (f q))
    (keeps : ∀ q, Ready q → Ready (f q)) {p : Processor δ} (ready : Ready p) (n : Nat) :
    (times x n).run p = .ok () (f^[n] p) := by
  induction n generalizing p with
  | zero => rfl
  | succ n ih =>
      rw [times, EStateM.run_bind, step p ready, Function.iterate_succ_apply]
      exact ih (keeps p ready)

end Execution

namespace Processor

open Execution

variable {δ : Type} {p q r : Processor δ} {op : ShiftOp} {dst : Operand}

/-- What a shift of the operand takes. -/
def shiftable (p : Processor δ) (dst : Operand) : Shiftable := ⟨p.valueOf dst, p.flags.carry⟩

/-- The processor after a shift of an operand by `n`. -/
def afterShift (p : Processor δ) (op : ShiftOp) (dst : Operand) (n : Nat) : Processor δ :=
  let s := shiftedBy op dst.size n (p.shiftable dst)
  if n = 0 then p
  else (p.put dst s.operand).withFlags
    (shiftFlags op (p.valueOf dst) s.operand n dst.size s.carry p.flags)

/-- The processors differ in the overflow flag, if at all. -/
def SameButOverflow (q r : Processor δ) : Prop :=
  q = r.withFlags { r.flags with overflow := q.flags.overflow }

theorem fits_shiftable (place : dst.isPlace) (readable : p.readFault? dst = none) :
    (p.shiftable dst).operand.toNat < Word.modulus dst.size :=
  toNat_valueOf_lt (isAccessSize_of_readable place readable)

theorem afterShift_zero : p.afterShift op dst 0 = p := rfl

theorem afterShift_of_ne_zero {n : Nat} (positive : n ≠ 0) :
    p.afterShift op dst n =
      (p.put dst (shiftedBy op dst.size n (p.shiftable dst)).operand).withFlags
        (shiftFlags op (p.valueOf dst) (shiftedBy op dst.size n (p.shiftable dst)).operand n
          dst.size (shiftedBy op dst.size n (p.shiftable dst)).carry p.flags) := by
  rw [afterShift, if_neg positive]

@[simp] theorem readFault?_afterShift (op : ShiftOp) (n : Nat) :
    (p.afterShift op dst n).readFault? dst = p.readFault? dst := by
  unfold afterShift
  split
  · rfl
  · rw [readFault?_withFlags, readFault?_put]

theorem shiftable_afterShift (op : ShiftOp) (place : dst.isPlace)
    (readable : p.readFault? dst = none) (n : Nat) :
    (p.afterShift op dst n).shiftable dst = shiftedBy op dst.size n (p.shiftable dst) := by
  have fits := fits_shiftedBy op n (fits_shiftable place readable)
  by_cases zero : n = 0
  · rw [zero, afterShift_zero, shiftedBy_zero]
  · have operand : (p.afterShift op dst n).valueOf dst =
        (shiftedBy op dst.size n (p.shiftable dst)).operand := by
      rw [afterShift_of_ne_zero zero, valueOf_withFlags, valueOf_put place readable,
        Word.truncate_of_lt fits]
    have carry : (p.afterShift op dst n).flags.carry =
        (shiftedBy op dst.size n (p.shiftable dst)).carry := by
      rw [afterShift_of_ne_zero zero]
      rfl
    exact Shiftable.ext operand carry

theorem shiftFlags_one (a r : Word) (size : Nat) (carry b : Bool) (f : Flags) :
    shiftFlags op a r 1 size carry { f with overflow := b } = shiftFlags op a r 1 size carry f := by
  unfold shiftFlags
  split <;> rfl

theorem shiftFlags_shiftFlags (a r s : Word) (n size : Nat) (c d : Bool) (f : Flags) (b : Bool) :
    { shiftFlags op r s 1 size d (shiftFlags op a r n size c f) with overflow := b } =
      { shiftFlags op a s (n + 1) size d f with overflow := b } := by
  unfold shiftFlags
  split <;> rfl

theorem afterShift_congr (same : SameButOverflow q r) :
    q.afterShift op dst 1 = r.afterShift op dst 1 := by
  rw [same, afterShift_of_ne_zero Nat.one_ne_zero, afterShift_of_ne_zero Nat.one_ne_zero]
  simp only [shiftable, valueOf_withFlags, flags_withFlags, put_withFlags,
    withFlags_withFlags, shiftFlags_one]

/-- A shift by one more is a shift and a shift by one, save for the overflow flag. -/
theorem afterShift_succ (place : dst.isPlace) (readable : p.readFault? dst = none) (n : Nat) :
    SameButOverflow (p.afterShift op dst (n + 1))
      ((p.afterShift op dst n).afterShift op dst 1) := by
  by_cases zero : n = 0
  · rw [zero, afterShift_zero]
    rfl
  · have fits := fits_shiftable place readable
    have operand : (p.afterShift op dst n).valueOf dst =
        (shiftedBy op dst.size n (p.shiftable dst)).operand :=
      congrArg Shiftable.operand (shiftable_afterShift op place readable n)
    rw [SameButOverflow, afterShift_of_ne_zero n.succ_ne_zero,
      afterShift_of_ne_zero Nat.one_ne_zero, shiftable_afterShift op place readable,
      ← shiftedBy_succ fits, operand, afterShift_of_ne_zero zero]
    simp only [put_withFlags, put_put, withFlags_withFlags, flags_withFlags,
      shiftFlags_shiftFlags]

theorem iterate_afterShift (op : ShiftOp) (place : dst.isPlace)
    (readable : p.readFault? dst = none) (n : Nat) :
    SameButOverflow (p.afterShift op dst n) ((Processor.afterShift · op dst 1)^[n] p) := by
  induction n with
  | zero => rfl
  | succ n ih =>
      rw [Function.iterate_succ_apply', ← afterShift_congr ih]
      exact afterShift_succ place readable n

/-- `q` is what a shift of `p` by `n` leaves, and `r` what as many shifts by one leave. -/
structure ShiftsBySteps (op : ShiftOp) (dst : Operand) (n : Nat) (p q r : Processor δ) : Prop where
  operand : q.valueOf dst = r.valueOf dst
  carry : q.flags.carry = r.flags.carry
  signZero : isRotation op = false → 1 ≤ n →
    q.flags.sign = r.flags.sign ∧ q.flags.zero = r.flags.zero
  elsewhere : SameButOverflow q r
  nothing : n = 0 → q = p
  rotation : isRotation op → q.flags.sign = p.flags.sign ∧ q.flags.zero = p.flags.zero
  overflow : n ≠ 1 → q.flags.overflow = p.flags.overflow

theorem shiftsBySteps (place : dst.isPlace) (readable : p.readFault? dst = none) (n : Nat) :
    ShiftsBySteps op dst n p (p.afterShift op dst n) ((Processor.afterShift · op dst 1)^[n] p) := by
  have same := iterate_afterShift op place readable n
  generalize (Processor.afterShift · op dst 1)^[n] p = r at same
  refine ⟨?operand, ?carry, ?signZero, same, ?nothing, ?rotation, ?overflow⟩
  case operand => rw [same, valueOf_withFlags]
  case carry => rw [same, flags_withFlags]
  case signZero =>
    intro _ _
    rw [same, flags_withFlags]
    exact ⟨rfl, rfl⟩
  case nothing =>
    rintro rfl
    rfl
  case rotation =>
    intro rotates
    unfold afterShift
    split
    · exact ⟨rfl, rfl⟩
    · simp [shiftFlags, rotates]
  case overflow =>
    intro several
    unfold afterShift
    split
    · rfl
    · simp [shiftFlags, several]

theorem afterShift_counterRotation {back : ShiftOp} (counter : counterRotation? op = some back)
    (place : dst.isPlace) (readable : p.readFault? dst = none) (n : Nat) :
    ((p.afterShift op dst n).afterShift back dst n).valueOf dst = p.valueOf dst ∧
      (throughCarry op →
        ((p.afterShift op dst n).afterShift back dst n).flags.carry = p.flags.carry) := by
  have once := (readFault?_afterShift op n).trans readable
  have left := shiftable_afterShift back place once n
  rw [shiftable_afterShift op place readable] at left
  have restored := shiftedBy_counterRotation counter (fits_shiftable place readable) n
  rwa [← left] at restored

end Processor

namespace Execution

variable {δ : Type} {p : Processor δ} {op : ShiftOp} {dst count : Operand}

theorem shift_run (place : dst.isPlace) (readable : p.readFault? dst = none)
    (counted : p.readFault? count = none) :
    (shift op (some dst, some count)).run p =
      .ok () (p.afterShift op dst ((p.valueOf count).toNat % 32)) := by
  have writable := Processor.writeFault?_of_readFault? readable
  have stored := Operand.stored_of_isPlace place
  apply Outcome.run_eq_ok
  simp only [shift, outcome_bind, outcome_read, readable, counted]
  refine ⟨by simp, fun _ => ⟨by simp, fun _ => ?_⟩⟩
  by_cases zero : (p.valueOf count).toNat % 32 = 0
  · simp [zero, Processor.afterShift_zero]
  · simp only [outcome_ite, outcome_bind, outcome_get, outcome_write, outcome_setFlags,
      writable, stored, Processor.flags_put]
    refine ⟨fun _ => ⟨by simp, fun _ => ⟨trivial, ?_⟩⟩, fun none => absurd zero none⟩
    rw [Processor.afterShift_of_ne_zero zero, shiftedBy_of_ne_zero zero,
      Processor.put_truncate place readable]
    rfl

theorem shift_run_of_fault {f : Fault} (fault : p.readFault? dst = some f) :
    (shift op (some dst, some count)).run p = .error f p := by
  apply Outcome.run_eq_error
  simp [shift, fault]

end Execution

namespace Instruction

variable {δ : Type} {i : Instruction} {op : ShiftOp} {dst count : Operand}

open Execution Processor

theorem Validated.of_shift (valid : i.Validated) (isShift : i.op = .shift op)
    (first : i.op1 = some dst) (second : i.op2 = some count) :
    dst.isPlace ∧ ∀ p : Processor δ, p.readFault? count = none := by
  obtain ⟨place, source⟩ := valid.kinds
  rw [isShift] at place source
  refine ⟨Operand.isPlace_of_kind (place dst first), fun p => ?_⟩
  have admitted : count.kind ∈ [OperandKind.register, .immediate] := source count second
  cases count with
  | register _ | immediate _ _ => rfl
  | memory _ | label _ => simp [Operand.kind] at admitted

variable [PortDevice δ]

theorem execute_of_shift (isShift : i.op = .shift op) (first : i.op1 = some dst)
    (second : i.op2 = some count) :
    (i.execute : Execution δ Unit) = shift op (some dst, some count) := by
  rw [execute, isShift, first, second]
  rfl

/-- The instruction with a count of one. -/
def byOne (i : Instruction) : Instruction := { i with op2 := some (.immediate 1 0) }

/-- A shift by `n` does what `n` shifts by one do, and the rotation the other way undoes it. -/
theorem shift_by_steps (valid : i.Validated) (isShift : i.op = .shift op) (first : i.op1 = some dst)
    (second : i.op2 = some count) (p : Processor δ) :
    let n := (p.valueOf count).toNat % 32
    (∀ f, p.readFault? dst = some f →
      i.execute.run p = .error f p ∧ i.byOne.execute.run p = .error f p) ∧
    (p.readFault? dst = none → ∃ q r,
      i.execute.run p = .ok () q ∧ (times i.byOne.execute n).run p = .ok () r ∧
        ShiftsBySteps op dst n p q r ∧
          ∀ (j : Instruction) (back : ShiftOp) (again : Operand), j.Validated →
            counterRotation? op = some back → j.op = .shift back → j.op1 = some dst →
            j.op2 = some again → (q.valueOf again).toNat % 32 = n →
              ∃ s, j.execute.run q = .ok () s ∧ s.valueOf dst = p.valueOf dst ∧
                (throughCarry op → s.flags.carry = p.flags.carry)) := by
  intro n
  obtain ⟨place, counted⟩ := valid.of_shift (δ := δ) isShift first second
  have whole : (i.execute : Execution δ Unit) = shift op (some dst, some count) :=
    execute_of_shift isShift first second
  have single : (i.byOne.execute : Execution δ Unit) =
      shift op (some dst, some (.immediate 1 0)) :=
    execute_of_shift isShift first rfl
  rw [whole, single]
  refine ⟨fun f fault => ⟨shift_run_of_fault fault, shift_run_of_fault fault⟩, fun readable => ?_⟩
  have step (q : Processor δ) (ready : q.readFault? dst = none) :
      (shift op (some dst, some (.immediate 1 0))).run q = .ok () (q.afterShift op dst 1) :=
    shift_run place ready rfl
  have steps := times_run (fun q : Processor δ => q.readFault? dst = none) step
    (fun q ready => (readFault?_afterShift op 1).trans ready) readable n
  refine ⟨_, _, shift_run place readable (counted p), steps, shiftsBySteps place readable n, ?_⟩
  intro j back again validBack counter isBack firstBack secondBack same
  obtain ⟨-, countedBack⟩ := validBack.of_shift (δ := δ) isBack firstBack secondBack
  have once := (readFault?_afterShift op n).trans readable
  refine ⟨(p.afterShift op dst n).afterShift back dst n, ?_,
    afterShift_counterRotation counter place readable n⟩
  rw [execute_of_shift isBack firstBack secondBack, shift_run place once (countedBack _), same]

/-- Ten places around a wheel of nine, and back. -/
theorem shift_by_steps_rcl :
    let i : Instruction :=
      { op := .shift .rcl, op1 := some (.register .al), op2 := some (.immediate 10 0) }
    let j : Instruction := { i with op := .shift .rcr }
    let p := (.new 16 {} default : Processor Script).setReg .al 0x81
    ∃ q r s, i.execute.run p = .ok () q ∧ (times i.byOne.execute 10).run p = .ok () r ∧
      ShiftsBySteps .rcl (.register .al) 10 p q r ∧ j.execute.run q = .ok () s ∧
        s.valueOf (.register .al) = 0x81 ∧ s.flags.carry = false := by
  intro i j p
  have valid : i.Validated := ⟨(i.op1, i.op2), rfl⟩
  have validBack : j.Validated := ⟨(j.op1, j.op2), rfl⟩
  obtain ⟨-, shifts⟩ := shift_by_steps valid rfl rfl rfl p
  obtain ⟨q, r, ran, steps, same, restores⟩ := shifts rfl
  obtain ⟨s, back, operand, carry⟩ :=
    restores j .rcr (.immediate 10 0) validBack rfl rfl rfl rfl rfl
  have start : p.valueOf (.register .al) = 0x81 ∧ p.flags.carry = false := by decide +kernel
  exact ⟨q, r, s, ran, steps, same, back, operand.trans start.1, (carry rfl).trans start.2⟩

end Instruction

end ReducedX86
