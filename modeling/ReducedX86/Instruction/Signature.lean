import ReducedX86.Operand
import ReducedX86.Operator

/-!
What each operator expects of its operands.

A signature gives the number of operands, the kinds that each position admits, and the rule that
relates their widths and values. All spellings of an operator share its signature.
-/
namespace ReducedX86

/-- What is asked of operands besides their number and kinds. -/
inductive OperandRule
  /-- nothing more -/
  | structural
  /-- both of one width; an unknown width is taken from the other -/
  | sameSize
  /-- a known width -/
  | sized
  /-- a count in `cl` or an immediate -/
  | shiftCount
  /-- a wide destination and a wide bit index of its width -/
  | bitIndex
  /-- a wide destination and a source of its width -/
  | wideSameSize
  /-- a wide destination and a narrower source of known width -/
  | extension
  /-- a wide destination; the width of the addressed operand does not matter -/
  | address
  /-- a byte destination -/
  | byteDestination
  /-- the accumulator, then a port -/
  | portSource
  /-- a port, then the accumulator -/
  | portDestination
  /-- a 32-bit register -/
  | register32
  /-- a wide destination -/
  | wideDestination
  /-- an immediate, which takes 4 bytes, or a wide operand -/
  | pushed
  /-- a wide operand -/
  | popped
  /-- nothing, or a byte count -/
  | release
  /-- an interrupt number that programs may raise -/
  | interruptNumber
  /-- a block in memory, whose width does not matter -/
  | stateBlock
  deriving DecidableEq, Repr, Inhabited

structure Signature where
  operandCount : Nat
  first : List OperandKind
  second : List OperandKind
  rule : OperandRule
  /-- stands before another instruction and repeats it -/
  repeats : Bool := false
  repeatable : Bool := false
  deriving DecidableEq, Repr, Inhabited

namespace Signature

def nullary : Signature := ⟨0, [], [], .structural, false, false⟩

def unary (first : List OperandKind) (rule : OperandRule) : Signature :=
  ⟨1, first, [], rule, false, false⟩

def binary (first second : List OperandKind) (rule : OperandRule) : Signature :=
  ⟨2, first, second, rule, false, false⟩

end Signature

namespace Operator

open OperandKind

private def place : List OperandKind := [register, memory]
private def value : List OperandKind := [register, memory, immediate]
private def registerOrImmediate : List OperandKind := [register, immediate]

def signature : Operator → Signature
  | arithmetic op => match op with
      | .inc | .dec | .neg => .unary place .sized
      | .add | .adc | .sub | .sbb | .cmp => .binary place value .sameSize
  | logic op => match op with
      | .not => .unary place .sized
      | .and | .or | .xor | .test => .binary place value .sameSize
  | shift _ => .binary place registerOrImmediate .shiftCount
  | bits op => match op with
      | .bsf | .bsr => .binary [register] place .wideSameSize
      | .bt | .btc | .btr | .bts => .binary place registerOrImmediate .bitIndex
  | transfer op => match op with
      | .mov => .binary place [register, memory, immediate, label] .sameSize
      | .movzx | .movsx => .binary [register] place .extension
      | .xchg => .binary place place .sameSize
      | .lea => .binary [register] [memory] .address
      | .xadd | .cmpxchg => .binary place [register] .sameSize
      | .xlatb => .nullary
      | .bswap => .unary [register] .register32
  | stack op => match op with
      | .push => .unary value .pushed
      | .pop => .unary place .popped
      | .pushad | .pushfd | .popad | .popfd => .nullary
  | control op => match op with
      | .call | .jmp => .unary [register, memory, label] .structural
      | .ret => .unary [immediate] .release
      | .int => .unary [immediate] .interruptNumber
      | .iret | .hlt => .nullary
  | loop _ | jump _ => .unary [label] .structural
  | move _ => .binary [register] place .wideSameSize
  | set _ => .unary place .byteDestination
  | string _ _ => { Signature.nullary with repeatable := true }
  | port op => match op with
      | .input => .binary [register] registerOrImmediate .portSource
      | .output => .binary registerOrImmediate [register] .portDestination
      | .ins _ | .outs _ => { Signature.nullary with repeatable := true }
  | wide _ => .unary place .sized
  | system op => match op with
      | .lidt | .sidt => .unary [register] .register32
      | .rdrand => .unary [register] .wideDestination
      | .xsave | .xrstor => .unary [memory] .stateBlock
      | .nop | .clc | .stc | .cmc | .cld | .std | .cli | .sti | .cwd | .cdq => .nullary
  | rep => { Signature.nullary with repeats := true }

end Operator

end ReducedX86
