import ReducedX86.Processor

/-!
Multiplication and division with the double-width accumulator: `ah:al`, `dx:ax` or `edx:eax`.

Products are exact. A division is refused when the divisor is zero or the quotient does not fit
the operand's width; it truncates toward zero, and a remainder has the sign of the dividend.
-/
namespace ReducedX86.Execution

variable {δ : Type}

/-- The high half of the accumulator at a width. -/
def highHalf : Nat → Register
  | 1 => .ah
  | 2 => .dx
  | _ => .edx

/-- The number in both halves of the accumulator. -/
def dividend (size : Nat) : Execution δ Nat := do
  return (← reg (highHalf size)).toNat * Word.modulus size + (← reg (.accumulator size)).toNat

/-- Stores numbers in the halves of the accumulator, modulo their width. -/
def setHalves (size : Nat) (low high : Int) : Execution δ Unit := do
  discard <| setReg (.accumulator size) (Word.ofInt low)
  discard <| setReg (highHalf size) (Word.ofInt high)

/-- Stores a product, and tells in carry and overflow whether its high half is needed. -/
def setProduct (size : Nat) (product : Int) (isWide : Word → Bool) : Execution δ Unit := do
  let high := product / (Word.modulus size : Int)
  setHalves size product high
  let wide := isWide ((Word.ofInt high).truncate size)
  setFlags fun f => { f with carry := wide, overflow := wide }

def multiply (size : Nat) (a : Word) : Execution δ Unit := do
  let product := a.toNat * (← reg (.accumulator size)).toNat
  setProduct size product (· != 0)

/-- The high half of a signed product is not needed when it is all zeros or all ones. -/
def multiplySigned (size : Nat) (a : Word) : Execution δ Unit := do
  let product := a.signed size * (← reg (.accumulator size)).signed size
  setProduct size product fun high => high != 0 && high != Word.mask size

def divide (size : Nat) (a : Word) : Execution δ Unit := do
  if a = 0 then throw .divisionByZero
  let d ← dividend size
  let quotient := d / a.toNat
  if (Word.mask size).toNat < quotient then throw .divisionOverflow
  setHalves size quotient (d % a.toNat : Nat)

def divideSigned (size : Nat) (a : Word) : Execution δ Unit := do
  if a = 0 then throw .divisionByZero
  let modulus := Word.modulus size
  let d := Word.twosComplement (← dividend size) (modulus * modulus)
  let divisor := a.signed size
  let quotient := d.tdiv divisor
  let limit : Int := (modulus / 2 : Nat)
  if limit ≤ quotient ∨ quotient < -limit then throw .divisionOverflow
  setHalves size quotient (d.tmod divisor)

def wide (op : WideOp) : Operands → Execution δ Unit
  | (some src, _) => do
      let a ← read src
      match op with
      | .mul => multiply src.size a
      | .imul => multiplySigned src.size a
      | .div => divide src.size a
      | .idiv => divideSigned src.size a
  | (none, _) => pure ()

end ReducedX86.Execution
