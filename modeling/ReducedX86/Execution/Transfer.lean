import ReducedX86.Processor

/-!
Instructions that move values between places.
-/
namespace ReducedX86.Execution

variable {δ : Type}

/-- Stores in the second operand first, then in the first. -/
def exchange (dst src : Operand) : Execution δ Unit := do
  let a ← read dst
  let b ← read src
  discard <| write src a
  discard <| write dst b

/-- Adds the source to the destination and leaves the old destination in the source. -/
def exchangeAdd (dst src : Operand) : Execution δ Unit := do
  let a ← read dst
  let b ← read src
  let sum := a.toNat + b.toNat
  discard <| write dst (UInt32.ofNat sum)
  discard <| write src a
  setFlags (·.afterAdd a b sum dst.size)

/-- Compares the accumulator with the destination. Equal, the source goes to the destination;
otherwise the destination goes to the accumulator. The flags are set before anything is stored. -/
def compareExchange (dst src : Operand) : Execution δ Unit := do
  let size := dst.size
  let current ← read dst
  let expected ← reg (.accumulator size)
  setFlags (·.afterSub expected current (expected - current) (expected < current) size)
  if (← get).flags.zero then
    discard <| write dst (← read src)
  else
    discard <| setReg (.accumulator size) current

/-- Replaces `al` by the byte it indexes in the table at `ebx`. -/
def translate : Execution δ Unit := do
  let value ← readMemory ((← reg .ebx) + (← reg .al)) 1
  discard <| setReg .al value

def transfer (op : TransferOp) : Operands → Execution δ Unit := fun operands =>
  match op, operands with
  | .xlatb, _ => translate
  | .bswap, (some dst, _) => do discard <| write dst (← read dst).swapBytes
  | .mov, (some dst, some src) | .movzx, (some dst, some src) => do
      discard <| write dst (← read src)
  | .movsx, (some dst, some src) => do
      discard <| write dst ((← read src).signExtend src.size)
  | .xchg, (some dst, some src) => exchange dst src
  | .lea, (some dst, some (.memory m)) => do discard <| write dst ((← get).addressOf m)
  | .xadd, (some dst, some src) => exchangeAdd dst src
  | .cmpxchg, (some dst, some src) => compareExchange dst src
  | _, _ => pure ()

/-- Copies the source if the condition holds; the source is read in any case. -/
def conditionalMove (c : Condition) : Operands → Execution δ Unit
  | (some dst, some src) => do
      let value ← read src
      if c.holds (← get).flags then discard <| write dst value
  | _ => pure ()

/-- Stores one if the condition holds and zero otherwise. -/
def conditionalSet (c : Condition) : Operands → Execution δ Unit
  | (some dst, _) => do
      discard <| write dst (if c.holds (← get).flags then 1 else 0)
  | (none, _) => pure ()

end ReducedX86.Execution
