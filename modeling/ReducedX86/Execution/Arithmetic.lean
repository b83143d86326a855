import ReducedX86.Processor

/-!
Addition, subtraction and the bitwise operations.

Every instruction reads its operands, stores the result, and only then sets flags, so a fault
leaves flags and destination alone. Increments keep the carry flag, `not` keeps all flags.
-/
namespace ReducedX86.Execution

variable {δ : Type}

/-- `inc`, `dec` and `neg`. The carry of `neg` tells that the result is not zero. -/
def unaryArithmetic (op : ArithmeticOp) (dst : Operand) (a : Word) : Execution δ Unit :=
  let size := dst.size
  match op with
  | .inc => do
      let r ← write dst (a + 1)
      setFlags fun f => { f with overflow := Flags.addOverflows a 1 r size }.withSignZero r size
  | .dec => do
      let r ← write dst (a - 1)
      setFlags fun f => { f with overflow := Flags.subOverflows a 1 r size }.withSignZero r size
  | .neg => do
      let r ← write dst (0 - a)
      setFlags fun f =>
        { f with carry := r != 0, overflow := Flags.subOverflows 0 a r size }.withSignZero r size
  | _ => pure ()

/-- The two-operand instructions; `cmp` subtracts without storing. -/
def binaryArithmetic (op : ArithmeticOp) (dst : Operand) (a b : Word) : Execution δ Unit := do
  let size := dst.size
  let carry := (← get).flags.carry
  match op with
  | .add =>
      let sum := a.toNat + b.toNat
      discard <| write dst (UInt32.ofNat sum)
      setFlags (·.afterAdd a b sum size)
  | .adc =>
      let sum := a.toNat + b.toNat + carry.toNat
      discard <| write dst (UInt32.ofNat sum)
      setFlags (·.afterAdd a b sum size)
  | .sub =>
      let r ← write dst (a - b)
      setFlags (·.afterSub a b r (a < b) size)
  | .sbb =>
      let r ← write dst (a - b - (if carry then 1 else 0))
      setFlags (·.afterSub a b r (if carry then a ≤ b else a < b) size)
  | .cmp => setFlags (·.afterSub a b (a - b) (a < b) size)
  | _ => pure ()

def arithmetic (op : ArithmeticOp) : Operands → Execution δ Unit
  | (some dst, src) => do
      let a ← read dst
      match op, src with
      | .inc, _ | .dec, _ | .neg, _ => unaryArithmetic op dst a
      | _, some src => binaryArithmetic op dst a (← read src)
      | _, none => pure ()
  | (none, _) => pure ()

def bitwise (op : LogicOp) (a b : Word) : Word :=
  match op with
  | .and | .test => a &&& b
  | .or => a ||| b
  | .xor => a ^^^ b
  | .not => ~~~a

def logic (op : LogicOp) : Operands → Execution δ Unit
  | (some dst, src) => do
      let a ← read dst
      match op, src with
      | .not, _ => discard <| write dst (bitwise .not a a)
      | _, some src =>
          let result := bitwise op a (← read src)
          if op ≠ .test then discard <| write dst result
          setFlags (·.afterLogic result dst.size)
      | _, none => pure ()
  | (none, _) => pure ()

end ReducedX86.Execution
