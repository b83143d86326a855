import ReducedX86.Device.Script
import ReducedX86.Proofs.Execution.Actions
import ReducedX86.Proofs.Execution.Operands
import ReducedX86.Proofs.Flags

/-!
Addition and subtraction in numbers.

Each operator of the family stands for a sum or difference of integers. It is the same one for
operands that are read without signs and for operands that are read with signs, and the word that is
stored is either of them modulo the width. Carry tells whether the first leaves the unsigned range,
overflow whether the second leaves the signed one.
-/
namespace ReducedX86

namespace ArithmeticOp

/-- What the operator makes of two operands and the carry. -/
def result (op : ArithmeticOp) (a b c : Int) : Int :=
  match op with
  | .add => a + b
  | .adc => a + b + c
  | .sub | .cmp => a - b
  | .sbb => a - b - c
  | .inc => a + 1
  | .dec => a - 1
  | .neg => -a

/-- The result of operands without signs. -/
def unsignedResult (op : ArithmeticOp) (a b : Word) (carry : Bool) : Int :=
  op.result a.toNat b.toNat carry.toNat

/-- The result of operands with signs. -/
def signedResult (op : ArithmeticOp) (size : Nat) (a b : Word) (carry : Bool) : Int :=
  op.result (a.signed size) (b.signed size) carry.toNat

/-- The operator has a second operand. -/
def isBinary : ArithmeticOp → Bool
  | .add | .adc | .sub | .sbb | .cmp => true
  | .inc | .dec | .neg => false

/-- The operator leaves the carry alone. -/
def keepsCarry : ArithmeticOp → Bool
  | .inc | .dec => true
  | _ => false

/-- Of two operands and the flags `f` the operator makes the word `w`, which is cut to the width
where it is stored, and the flags `g`. -/
structure Yields (op : ArithmeticOp) (size : Nat) (a b : Word) (f : Flags) (w : Word) (g : Flags) :
    Prop where
  word : w = Word.ofInt (op.unsignedResult a b f.carry)
  carry : op.keepsCarry = false →
    (g.carry ↔ ¬ Word.FitsUnsigned (op.unsignedResult a b f.carry) size)
  kept : op.keepsCarry → g.carry = f.carry
  describes : g.Describes (w.truncate size) (op.signedResult size a b f.carry) size
  direction : g.direction = f.direction
  interrupt : g.interrupt = f.interrupt

section Yields

variable {size : Nat} {a b : Word} (f : Flags) (small : a.toNat < Word.modulus size)

include small

theorem yields_inc (b : Word) :
    Yields .inc size a b f (a + 1)
      ({ f with overflow := Flags.addOverflows a 1 ((a + 1).truncate size) size }.withSignZero
        ((a + 1).truncate size) size) := by
  have word : a + 1 = Word.ofInt (unsignedResult .inc a b f.carry) := by
    rw [unsignedResult, result, Word.ofInt_add, Word.ofInt_toNat]
    rfl
  refine ⟨word, nofun, fun _ => rfl, ?_, rfl, rfl⟩
  refine Flags.describes_of_sum (y := 1) (c := 0) small (Word.one_lt_modulus size) (by decide) word
    ?_ ?_ rfl
  · simp [unsignedResult, result]
  · simp [signedResult, result, Word.signed_one]

theorem yields_dec (b : Word) :
    Yields .dec size a b f (a - 1)
      ({ f with overflow := Flags.subOverflows a 1 ((a - 1).truncate size) size }.withSignZero
        ((a - 1).truncate size) size) := by
  have word : a - 1 = Word.ofInt (unsignedResult .dec a b f.carry) := by
    rw [unsignedResult, result, Word.ofInt_sub, Word.ofInt_toNat]
    rfl
  refine ⟨word, nofun, fun _ => rfl, ?_, rfl, rfl⟩
  refine Flags.describes_of_difference (y := 1) (c := 0) small (Word.one_lt_modulus size)
    (by decide) word ?_ ?_ rfl
  · simp [unsignedResult, result]
  · simp [signedResult, result, Word.signed_one]

/-- Only zero is not out of range with its sign changed. -/
theorem negates_iff :
    (0 - a).truncate size ≠ 0 ↔ ¬ Word.FitsUnsigned (-(a.toNat : Int)) size := by
  have stored : (((0 - a).truncate size).toNat : Int) = -(a.toNat : Int) % Word.modulus size := by
    rw [← Word.toNat_truncate_ofInt, ← Int.zero_sub, Word.ofInt_sub, Word.ofInt_toNat]
    rfl
  rw [ne_eq, ← UInt32.toNat_inj, UInt32.toNat_zero, Word.FitsUnsigned]
  rcases Word.width_cases size with ⟨-, h⟩ | ⟨-, h⟩ | ⟨-, h⟩ <;> rw [h] at small stored ⊢ <;> omega

theorem yields_neg (b : Word) :
    Yields .neg size a b f (0 - a)
      ({ f with
        carry := (0 - a).truncate size != 0
        overflow := Flags.subOverflows 0 a ((0 - a).truncate size) size }.withSignZero
          ((0 - a).truncate size) size) := by
  have word : 0 - a = Word.ofInt (unsignedResult .neg a b f.carry) := by
    rw [unsignedResult, result, ← Int.zero_sub, Word.ofInt_sub, Word.ofInt_toNat]
    rfl
  have zero : (0 : Word).toNat < Word.modulus size := Nat.zero_lt_of_lt small
  refine ⟨word, fun _ => bne_iff_ne.trans (negates_iff small), nofun, ?_, rfl, rfl⟩
  refine Flags.describes_of_difference (c := 0) zero small (by decide) word ?_ ?_ rfl
  · simp [unsignedResult, result]
  · simp [signedResult, result, Word.signed_zero]

variable (small' : b.toNat < Word.modulus size)
include small'

theorem yields_add :
    Yields .add size a b f (UInt32.ofNat (a.toNat + b.toNat))
      (f.afterAdd a b (a.toNat + b.toNat) size) := by
  have word := (Word.ofInt_natCast (a.toNat + b.toNat)).symm
  refine ⟨word, fun _ => Flags.carries_iff .., nofun, ?_, rfl, rfl⟩
  refine Flags.describes_of_sum (c := 0) small small' (by decide) word ?_ ?_ rfl
  · simp
  · simp [signedResult, result]

theorem yields_adc :
    Yields .adc size a b f (UInt32.ofNat (a.toNat + b.toNat + f.carry.toNat))
      (f.afterAdd a b (a.toNat + b.toNat + f.carry.toNat) size) := by
  have word := (Word.ofInt_natCast (a.toNat + b.toNat + f.carry.toNat)).symm
  refine ⟨word, fun _ => Flags.carries_iff .., nofun, ?_, rfl, rfl⟩
  exact Flags.describes_of_sum small small' (Bool.toNat_le f.carry) word rfl rfl rfl

theorem yields_sub :
    Yields .sub size a b f (a - b) (f.afterSub a b (a - b) (a < b) size) := by
  have word : a - b = Word.ofInt (unsignedResult .sub a b f.carry) := by
    rw [unsignedResult, result, Word.ofInt_sub, Word.ofInt_toNat, Word.ofInt_toNat]
  have borrow := Flags.borrows_iff (y := b) (c := 0) small
  refine ⟨word, fun _ => ?_, nofun, ?_, rfl, rfl⟩
  · simpa [Flags.afterSub, Flags.withSignZero, unsignedResult, result, UInt32.lt_iff_toNat_lt]
      using borrow
  · refine Flags.describes_of_difference (c := 0) small small' (by decide) word ?_ ?_ rfl
    · simp [unsignedResult, result]
    · simp [signedResult, result]

/-- A comparison subtracts. -/
theorem yields_cmp :
    Yields .cmp size a b f (a - b) (f.afterSub a b (a - b) (a < b) size) :=
  have subtraction := yields_sub f small small'
  ⟨subtraction.word, subtraction.carry, nofun, subtraction.describes, rfl, rfl⟩

theorem yields_sbb :
    Yields .sbb size a b f (a - b - (if f.carry then 1 else 0))
      (f.afterSub a b (a - b - (if f.carry then 1 else 0)) (if f.carry then a ≤ b else a < b)
        size) := by
  have word : a - b - (if f.carry then 1 else 0) =
      Word.ofInt (unsignedResult .sbb a b f.carry) := by
    rw [unsignedResult, result, Word.ofInt_sub, Word.ofInt_sub, Word.ofInt_toNat, Word.ofInt_toNat]
    cases f.carry <;> rfl
  refine ⟨word, fun _ => ?_, nofun, ?_, rfl, rfl⟩
  · rw [unsignedResult, result, ← Flags.borrows_iff small]
    cases f.carry with
    | false => exact decide_eq_true_iff.trans UInt32.lt_iff_toNat_lt
    | true => exact decide_eq_true_iff.trans (UInt32.le_iff_toNat_le.trans Nat.lt_succ_iff.symm)
  · exact Flags.describes_of_difference small small' (Bool.toNat_le f.carry) word rfl rfl rfl

end Yields

end ArithmeticOp

namespace Processor

variable {δ : Type} {p : Processor δ} {op : ArithmeticOp} {dst : Operand} {b w : Word}

/-- `q` is `p` after the operator has made `w` of what `dst` holds and of `b`. -/
structure Calculates (op : ArithmeticOp) (dst : Operand) (b w : Word) (p q : Processor δ) :
    Prop where
  yields : op.Yields dst.size (p.valueOf dst) b p.flags w q.flags
  stored : op ≠ .cmp → ((q.valueOf dst).toNat : Int) =
    op.unsignedResult (p.valueOf dst) b p.flags.carry % Word.modulus dst.size
  elsewhere : q = (if op = .cmp then p else p.put dst w).withFlags q.flags

theorem Calculates.of_put (place : dst.isPlace) (readable : p.readFault? dst = none)
    (stores : op ≠ .cmp) {g : Flags} (yields : op.Yields dst.size (p.valueOf dst) b p.flags w g) :
    p.Calculates op dst b w ((p.put dst w).withFlags g) where
  yields := yields
  stored _ := by
    rw [valueOf_withFlags, valueOf_put place readable, yields.word, Word.toNat_truncate_ofInt]
  elsewhere := by
    rw [if_neg stores]
    rfl

end Processor

namespace Execution

open ArithmeticOp

variable {δ : Type} {p : Processor δ} {op : ArithmeticOp} {dst src : Operand}
  {other : Option Operand}

theorem unaryArithmetic_calculates (place : dst.isPlace) (unary : op.isBinary = false) (b : Word) :
    Outcome (arithmetic op (some dst, other)) (fun _ q => ∃ w, p.Calculates op dst b w q)
      (fun _ _ => True) p := by
  have stored := Operand.stored_of_isPlace place
  have small (readable : p.readFault? dst = none) :
      (p.valueOf dst).toNat < Word.modulus dst.size :=
    Processor.toNat_valueOf_lt (Processor.isAccessSize_of_readable place readable)
  cases op
  case add | adc | sub | sbb | cmp => cases unary
  all_goals
    simp only [arithmetic, unaryArithmetic, outcome_bind, outcome_read, outcome_write,
      outcome_setFlags, implies_true, true_and, stored, Processor.flags_put]
    intro readable _
  case inc => exact ⟨_, .of_put place readable (by decide) (yields_inc _ (small readable) b)⟩
  case dec => exact ⟨_, .of_put place readable (by decide) (yields_dec _ (small readable) b)⟩
  case neg => exact ⟨_, .of_put place readable (by decide) (yields_neg _ (small readable) b)⟩

theorem binaryArithmetic_calculates (place : dst.isPlace) (binary : op.isBinary)
    (access : Memory.isAccessSize src.size) (same : dst.size = src.size) :
    Outcome (arithmetic op (some dst, some src))
      (fun _ q => ∃ w, p.Calculates op dst (p.valueOf src) w q) (fun _ _ => True) p := by
  have stored := Operand.stored_of_isPlace place
  have small : (p.valueOf dst).toNat < Word.modulus dst.size :=
    Processor.toNat_valueOf_lt (same ▸ access)
  have small' : (p.valueOf src).toNat < Word.modulus dst.size :=
    same ▸ Processor.toNat_valueOf_lt access
  cases op
  case inc | dec | neg => cases binary
  all_goals
    simp only [arithmetic, binaryArithmetic, outcome_bind, outcome_read, outcome_write,
      outcome_setFlags, outcome_get, outcome_discard, implies_true, true_and, stored,
      Processor.flags_put, Flags.afterSub_truncate]
    intro readable _
  case cmp => exact ⟨_, yields_cmp _ small small', fun stores => absurd rfl stores, rfl⟩
  all_goals intro _
  case add => exact ⟨_, .of_put place readable (by decide) (yields_add _ small small')⟩
  case adc => exact ⟨_, .of_put place readable (by decide) (yields_adc _ small small')⟩
  case sub => exact ⟨_, .of_put place readable (by decide) (yields_sub _ small small')⟩
  case sbb => exact ⟨_, .of_put place readable (by decide) (yields_sbb _ small small')⟩

end Execution

namespace ArithmeticOp

variable {op : ArithmeticOp}

theorem signature_of_unary (unary : op.isBinary = false) :
    (Operator.arithmetic op).signature = .unary [.register, .memory] .sized := by
  cases op
  case inc | dec | neg => rfl
  all_goals cases unary

theorem signature_of_binary (binary : op.isBinary) :
    (Operator.arithmetic op).signature =
      .binary [.register, .memory] [.register, .memory, .immediate] .sameSize := by
  cases op
  case inc | dec | neg => cases binary
  all_goals rfl

end ArithmeticOp

namespace Instruction

variable {δ : Type} [PortDevice δ] {i : Instruction} {op : ArithmeticOp} {p q : Processor δ}

/-- An addition or subtraction that succeeds has stored the exact result and described it. -/
theorem arithmetic_exact (valid : i.Validated) (isArithmetic : i.op = .arithmetic op)
    (ran : i.execute.run p = .ok () q) :
    ∃ dst b w, i.op1 = some dst ∧
      i.op2.map p.valueOf = (if op.isBinary then some b else none) ∧ p.Calculates op dst b w q := by
  have executes : (i.execute : Execution δ Unit) = Execution.arithmetic op (i.op1, i.op2) := by
    rw [execute, isArithmetic]
    rfl
  rw [executes] at ran
  cases binary : op.isBinary with
  | false =>
      have signature := ArithmeticOp.signature_of_unary binary
      rw [← isArithmetic] at signature
      obtain ⟨dst, first, second, kind⟩ := valid.exists_one signature (by decide)
      rw [first, second] at ran
      obtain ⟨w, calculates⟩ := (Execution.unaryArithmetic_calculates
        (Operand.isPlace_of_kind kind) binary 0).of_ok ran
      exact ⟨dst, 0, w, first, by rw [second]; rfl, calculates⟩
  | true =>
      have signature := ArithmeticOp.signature_of_binary binary
      rw [← isArithmetic] at signature
      obtain ⟨dst, src, first, second, kind, -⟩ := valid.exists_two signature (by decide)
      have same := valid.size_eq (by rw [signature]; rfl) first second
      have widths := valid.haveWidths (by rw [signature]; rfl)
      rw [second] at widths
      rw [first, second] at ran
      obtain ⟨w, calculates⟩ := (Execution.binaryArithmetic_calculates
        (Operand.isPlace_of_kind kind) binary widths.2 same).of_ok ran
      exact ⟨dst, p.valueOf src, w, first, by rw [second]; rfl, calculates⟩

/-- In a byte, 128 and itself and a carry make one, which carries and overflows. -/
theorem arithmetic_exact_adc :
    let i : Instruction :=
      { op := .arithmetic .adc, op1 := some (.register .al), op2 := some (.register .al) }
    let p := ((.new 16 {} default : Processor Script).setReg .al 0x80).withFlags { carry := true }
    ∃ q, i.execute.run p = .ok () q ∧ q.reg .al = 1 ∧ q.flags.carry ∧ q.flags.overflow := by
  intro i p
  have valid : i.Validated := ⟨(i.op1, i.op2), rfl⟩
  have start : p.valueOf (.register .al) = 0x80 := by decide +kernel
  obtain ⟨q, ran⟩ : ∃ q, i.execute.run p = .ok () q := ⟨_, rfl⟩
  obtain ⟨dst, b, w, first, second, calculates⟩ := arithmetic_exact valid rfl ran
  cases Option.some.inj first
  cases Option.some.inj second
  have stored := calculates.stored (by decide)
  have carry := calculates.yields.carry rfl
  have overflow := calculates.yields.describes.overflow
  rw [start] at stored carry overflow
  refine ⟨q, ran, UInt32.toNat_inj.mp ?_, carry.mpr (by decide), overflow.mpr (by decide)⟩
  exact Int.natCast_inj.mp (stored.trans (by decide))

end Instruction

end ReducedX86
