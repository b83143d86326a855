import ReducedX86.Word.Numeric

/-!
Faults: the reasons for which an instruction is abandoned.
-/
namespace ReducedX86

inductive Fault
  | invalidReadAddress (address : Word)
  | invalidReadSize (size : Nat)
  | invalidWriteAddress (address : Word)
  | invalidWriteSize (size : Nat)
  | invalidInstructionAddress (address : Word)
  | divisionByZero
  | divisionOverflow
  deriving DecidableEq, Repr, Inhabited

def Fault.message : Fault → String
  | invalidReadAddress address => "invalid read address: " ++ address.hex 4
  | invalidReadSize size => "invalid read size: " ++ toString size
  | invalidWriteAddress address => "invalid write address: " ++ address.hex 4
  | invalidWriteSize size => "invalid write size: " ++ toString size
  | invalidInstructionAddress address => "invalid instruction address: " ++ address.hex 4
  | divisionByZero => "division by 0"
  | divisionOverflow => "division overflow"

end ReducedX86
