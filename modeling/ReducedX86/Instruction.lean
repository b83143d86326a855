import ReducedX86.Word.Numeric
import ReducedX86.Operand
import ReducedX86.Operator

/-!
Instructions, where they came from, and how they are written.

The written form of a memory operand names its width when it has one of the three that the
language can say, then the base, the scaled index and the displacement that are present.
-/
namespace ReducedX86

/-- A place in a source text, counted in characters from zero. -/
structure Position where
  line : Nat := 0
  column : Nat := 0
  index : Nat := 0
  deriving DecidableEq, Repr, Inhabited

/-- Line and column as people count them, from one. -/
def Position.text (p : Position) : String :=
  toString (p.line + 1) ++ ":" ++ toString (p.column + 1)

structure Instruction where
  op : Operator
  op1 : Option Operand := none
  op2 : Option Operand := none
  position : Position := {}
  deriving DecidableEq, Repr, Inhabited

def MemoryOperand.sizeText (size : Nat) : String :=
  match size with
  | 1 => "byte ptr "
  | 2 => "word ptr "
  | 4 => "dword ptr "
  | _ => ""

def MemoryOperand.summands (m : MemoryOperand) : List String :=
  let base := m.base.toList.map Register.name
  let index := m.index.toList.map fun r =>
    if m.scale = .one then r.name
    else r.name ++ " * " ++ toString m.scale.factor.toNat
  let registers := base ++ index
  if m.displacement != 0 || registers.isEmpty then registers ++ ["0x" ++ m.displacement.shortHex]
  else registers

def MemoryOperand.text (m : MemoryOperand) : String :=
  MemoryOperand.sizeText m.size ++ "[" ++ " + ".intercalate m.summands ++ "]"

def Operand.text : Operand → String
  | .register r => r.name
  | .memory m => m.text
  | .immediate value _ => "0x" ++ value.shortHex
  | .label address => address.hex 4

def Instruction.text (i : Instruction) : String :=
  let first := match i.op1 with
    | some o => " " ++ o.text
    | none => ""
  let second := match i.op2 with
    | some o => ", " ++ o.text
    | none => ""
  i.op.name ++ first ++ second

end ReducedX86
