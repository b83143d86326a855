import ReducedX86.Execution.Arithmetic
import ReducedX86.Execution.Bits
import ReducedX86.Execution.Control
import ReducedX86.Execution.Ports
import ReducedX86.Execution.Shift
import ReducedX86.Execution.Strings
import ReducedX86.Execution.System
import ReducedX86.Execution.Transfer
import ReducedX86.Execution.Wide

/-!
What each operator does to a processor.

Instructions are meant to have passed validation. An operand that is absent where one is needed
makes an instruction do nothing.
-/
namespace ReducedX86

def Operator.execute {δ : Type} [PortDevice δ] (op : Operator) (operands : Operands) :
    Execution δ Unit :=
  match op with
  | arithmetic op => Execution.arithmetic op operands
  | logic op => Execution.logic op operands
  | shift op => Execution.shift op operands
  | bits op => Execution.bits op operands
  | transfer op => Execution.transfer op operands
  | stack op => Execution.stack op operands
  | control op => Execution.control op operands
  | loop op => Execution.loop op operands
  | jump c => Execution.conditionalJump c operands
  | move c => Execution.conditionalMove c operands
  | set c => Execution.conditionalSet c operands
  | string op w => Execution.string op w
  | port op => Execution.port op operands
  | wide op => Execution.wide op operands
  | system op => Execution.system op operands
  | rep => discard Execution.countRepetition

def Instruction.execute {δ : Type} [PortDevice δ] (i : Instruction) : Execution δ Unit :=
  i.op.execute (i.op1, i.op2)

end ReducedX86
