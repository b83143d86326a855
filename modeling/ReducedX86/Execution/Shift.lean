import ReducedX86.Processor

/-!
Shifts and rotations.

Counts are taken modulo 32, and a count of zero changes nothing. Shifts set sign and zero,
rotations do not; the overflow flag is set by a count of one only. A rotation through the carry
is a rotation of the operand with the carry as an additional top bit.
-/
namespace ReducedX86.Execution

variable {δ : Type}

/-- Rotates a number of `width` bits to the left by `n ≤ width`. -/
def rotateLeft (value n width : Nat) : Nat :=
  (value <<< n + value >>> (width - n)) % (1 <<< width)

/-- The stored result and the carry of shifting `a` by `n`, which is not zero. -/
def shifted (op : ShiftOp) (a : Word) (n size : Nat) (carry : Bool) : Word × Bool :=
  let width := Word.bits size
  match op with
  | .shl =>
      let wide := a.toNat <<< n
      (UInt32.ofNat wide, n ≤ width && wide.testBit width)
  | .shr => (UInt32.ofNat (a.toNat >>> n), a.toNat.testBit (n - 1))
  | .sar =>
      let value := a.signed size
      (Word.ofInt (value >>> n), value >>> (n - 1) % 2 != 0)
  | .rol =>
      let r := rotateLeft a.toNat (n % width) width
      (UInt32.ofNat r, r.testBit 0)
  | .ror =>
      let r := rotateLeft a.toNat ((width - n % width) % width) width
      (UInt32.ofNat r, r.testBit (width - 1))
  | .rcl =>
      let r := rotateLeft (carry.toNat <<< width + a.toNat) (n % (width + 1)) (width + 1)
      (UInt32.ofNat (r % (1 <<< width)), r.testBit width)
  | .rcr =>
      let k := (width + 1 - n % (width + 1)) % (width + 1)
      let r := rotateLeft (carry.toNat <<< width + a.toNat) k (width + 1)
      (UInt32.ofNat (r % (1 <<< width)), r.testBit width)

/-- The overflow flag after shifting `a` by one to `r`, with the carry before and after. -/
def shiftOverflow (op : ShiftOp) (a r : Word) (size : Nat) (before after : Bool) : Bool :=
  match op with
  | .shl | .rol | .rcl => after != r.negative size
  | .shr => a.negative size
  | .sar => false
  | .ror => r.negative size != r.bit (Word.bits size - 2)
  | .rcr => before != a.negative size

def isRotation : ShiftOp → Bool
  | .rol | .ror | .rcl | .rcr => true
  | .shl | .shr | .sar => false

/-- The flags after shifting `a` by `n` to `r` with the carry `carry` shifted out. -/
def shiftFlags (op : ShiftOp) (a r : Word) (n size : Nat) (carry : Bool) (f : Flags) : Flags :=
  let shown := if isRotation op then f else f.withSignZero r size
  { shown with
    carry
    overflow := if n = 1 then shiftOverflow op a r size f.carry carry else f.overflow }

def shift (op : ShiftOp) : Operands → Execution δ Unit
  | (some dst, some count) => do
      let a ← read dst
      let n := (← read count).toNat % 32
      if n ≠ 0 then
        let (result, carry) := shifted op a n dst.size (← get).flags.carry
        let r ← write dst result
        setFlags (shiftFlags op a r n dst.size carry)
  | _ => pure ()

end ReducedX86.Execution
