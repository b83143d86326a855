import ReducedX86.Processor

/-!
Single bits: testing and changing one, and searching for one.

A bit index in a register may point outside a memory operand, forwards or backwards: it selects a
bit of the bit string that starts at the operand's address. Every other index is taken modulo
the width of the operand.
-/
namespace ReducedX86.Execution

variable {δ : Type}

/-- What becomes of the tested bit, if the instruction changes it. -/
def changedBit? (op : BitOp) (bit : Bool) : Option Bool :=
  match op with
  | .btc => some (!bit)
  | .btr => some false
  | .bts => some true
  | .bt | .bsf | .bsr => none

def setCarry (carry : Bool) : Execution δ Unit := setFlags fun f => { f with carry }

/-- Tests bit `k`, which may be negative, of the bit string at the address of `m`. -/
def testBitString (op : BitOp) (m : MemoryOperand) (k : Int) : Execution δ Unit := do
  let address := (← get).addressOf m + Word.ofInt (k / 8)
  let i := (k % 8).toNat
  let byte ← readMemory address 1
  setCarry (byte.bit i)
  match changedBit? op (byte.bit i) with
  | some b => writeMemory address (byte.setBit i b) 1
  | none => pure ()

def testOperandBit (op : BitOp) (dst : Operand) (i : Nat) : Execution δ Unit := do
  let a ← read dst
  setCarry (a.bit i)
  match changedBit? op (a.bit i) with
  | some b => discard <| write dst (a.setBit i b)
  | none => pure ()

/-- The lowest set bit of a word, or the highest, as `op` says. -/
def foundBit (op : BitOp) (value : Word) : Nat :=
  match op with
  | .bsf => ((List.range 32).find? value.bit).getD 0
  | _ => Nat.log2 value.toNat

/-- Searches a source for a set bit; the destination stays if there is none. -/
def scanBits (op : BitOp) (dst src : Operand) : Execution δ Unit := do
  let value ← read src
  setFlags fun f => { f with zero := value == 0 }
  if value ≠ 0 then discard <| write dst (UInt32.ofNat (foundBit op value))

def bits (op : BitOp) : Operands → Execution δ Unit
  | (some dst, some src) =>
      match op with
      | .bsf | .bsr => scanBits op dst src
      | .bt | .btc | .btr | .bts => do
          let index ← read src
          match dst, src with
          | .memory m, .register r => testBitString op m (index.signed r.size)
          | _, _ => testOperandBit op dst (index.toNat % (if dst.size = 4 then 32 else 16))
  | _ => pure ()

end ReducedX86.Execution
