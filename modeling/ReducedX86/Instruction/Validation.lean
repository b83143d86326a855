import ReducedX86.Instruction.Signature

/-!
The checks an instruction passes once, when it is assembled.

Number, kinds, memory-to-memory, supported widths and direct use of `eip` are checked first, in
this order; then the rule of the signature. Validation returns the operands, and the only thing
it changes in them is a width that was not known, save that pushed immediates take 4 bytes.
-/
namespace ReducedX86

inductive ValidationError
  | invalidOperandCount
  | invalidDestinationType
  | invalidSourceType
  | memoryToMemory
  | accumulatorOnly
  | accumulatorOnlySource
  | clOnly
  | dxOnly
  | dxOnlySource
  | immediateOutOfByteRange
  | invalidInterrupt
  | destination16Or32Only
  | source16Or32Only
  | destinationAnySizeOnly
  | sourceAnySizeOnly
  | destination8Only
  | operand16Or32Only
  | noEip
  | register32Only
  | sizeMismatch
  | sizeUnknown
  | destinationSizeUnknown
  | sourceSizeUnknown
  deriving DecidableEq, Repr, Inhabited

def ValidationError.message : ValidationError → String
  | invalidOperandCount => "invalid operand count"
  | invalidDestinationType => "invalid destination operand type"
  | invalidSourceType => "invalid source operand type"
  | memoryToMemory => "memory to memory operations are not allowed"
  | accumulatorOnly => "destination must be AL, AX or EAX"
  | accumulatorOnlySource => "source must be AL, AX or EAX"
  | clOnly => "count must be CL or an immediate"
  | dxOnly => "destination must be DX or an immediate"
  | dxOnlySource => "source must be DX or an immediate"
  | immediateOutOfByteRange => "immediate must be between 0 and 255"
  | invalidInterrupt => "invalid interrupt number (only 3 and 32-255 are allowed)"
  | destination16Or32Only => "destination must be 16 or 32 bits"
  | source16Or32Only => "source must be 16 or 32 bits"
  | destinationAnySizeOnly => "destination must be 8, 16 or 32 bits"
  | sourceAnySizeOnly => "source must be 8, 16 or 32 bits"
  | destination8Only => "destination must be 8 bits"
  | operand16Or32Only => "operand must be 16 or 32 bits"
  | noEip => "eip cannot be accessed directly"
  | register32Only => "operand must be a 32-bit register"
  | sizeMismatch => "destination and source sizes do not match"
  | sizeUnknown => "destination and source sizes are unknown"
  | destinationSizeUnknown => "destination size is unknown"
  | sourceSizeUnknown => "source size is unknown"

abbrev Operands := Option Operand × Option Operand

namespace Signature

open ValidationError

/-- Widths that an operand may have before its instruction is looked at more closely. -/
def supportedSize (size : Nat) : Bool := size == 0 || size == 1 || size == 2 || size == 4

def wideSize (size : Nat) : Bool := size == 2 || size == 4

def isAccumulator (o : Operand) : Bool :=
  o == .register .al || o == .register .ax || o == .register .eax

def checkKinds (s : Signature) : Operands → Except ValidationError Unit
  | (none, none) => if s.operandCount = 0 then .ok () else .error invalidOperandCount
  | (some a, none) =>
      if s.operandCount ≠ 1 then .error invalidOperandCount
      else if a.kind ∈ s.first then .ok ()
      else .error invalidDestinationType
  | (some a, some b) =>
      if s.operandCount ≠ 2 then .error invalidOperandCount
      else if a.kind ∉ s.first then .error invalidDestinationType
      else if b.kind ∉ s.second then .error invalidSourceType
      else if a.isMemory && b.isMemory then .error memoryToMemory
      else .ok ()
  | (none, some _) => .error invalidOperandCount

/-- What every rule starts with. Rules for which a width is meaningless leave it out. -/
def checkStructure (s : Signature) (operands : Operands) (sizeOf1 sizeOf2 : Bool) :
    Except ValidationError Unit := do
  checkKinds s operands
  if sizeOf1 && operands.1.any (!supportedSize ·.size) then throw destinationAnySizeOnly
  if sizeOf2 && operands.2.any (!supportedSize ·.size) then throw sourceAnySizeOnly
  if operands.1 == some (.register .eip) || operands.2 == some (.register .eip) then throw noEip

/-- Gives the second operand the width of the first if it has none, then asks them to agree. -/
def matchSizes (a b : Operand) : Except ValidationError Operands :=
  let b := if b.size = 0 then b.withSize a.size else b
  if a.size = b.size then .ok (some a, some b) else .error sizeMismatch

def applyBinaryRule (rule : OperandRule) (a b : Operand) : Except ValidationError Operands :=
  match rule with
  | .sameSize =>
      if a.size = 0 ∧ b.size = 0 then .error sizeUnknown
      else if a.size = 0 then .ok (some (a.withSize b.size), some b)
      else matchSizes a b
  | .shiftCount =>
      match b with
      | .register r => if r = .cl then .ok (some a, some b) else .error clOnly
      | _ => .ok (some a, some b)
  | .bitIndex =>
      if !wideSize a.size then .error destination16Or32Only
      else match b with
        | .register r =>
            if !wideSize r.size then .error source16Or32Only else matchSizes a b
        | _ => matchSizes a b
  | .wideSameSize =>
      if !wideSize a.size then .error destination16Or32Only else matchSizes a b
  | .extension =>
      if !wideSize a.size then .error destination16Or32Only
      else if a.size ≤ b.size then .error sizeMismatch
      else if b.size = 0 then .error sourceSizeUnknown
      else .ok (some a, some b)
  | .address =>
      if !wideSize a.size then .error destination16Or32Only else .ok (some a, some b)
  | .portSource =>
      if !isAccumulator a then .error accumulatorOnly
      else match b with
        | .immediate value _ =>
            if 255 < value then .error immediateOutOfByteRange else .ok (some a, some b)
        | .register r => if r = .dx then .ok (some a, some b) else .error dxOnlySource
        | _ => .ok (some a, some b)
  | .portDestination =>
      let port : Except ValidationError Unit := match a with
        | .immediate value _ => if 255 < value then .error immediateOutOfByteRange else .ok ()
        | .register r => if r = .dx then .ok () else .error dxOnly
        | _ => .ok ()
      match port with
      | .error e => .error e
      | .ok () =>
          if isAccumulator b then .ok (some a, some b) else .error accumulatorOnlySource
  | _ => .ok (some a, some b)

def applyUnaryRule (rule : OperandRule) (a : Operand) : Except ValidationError Operands :=
  match rule with
  | .sized => if a.size = 0 then .error destinationSizeUnknown else .ok (some a, none)
  | .byteDestination => if a.size = 1 then .ok (some a, none) else .error destination8Only
  | .register32 => if a.size = 4 then .ok (some a, none) else .error register32Only
  | .wideDestination =>
      if wideSize a.size then .ok (some a, none) else .error destination16Or32Only
  | .pushed =>
      if a.kind = .immediate then .ok (some (a.withSize 4), none)
      else if wideSize a.size then .ok (some a, none)
      else .error operand16Or32Only
  | .popped => if wideSize a.size then .ok (some a, none) else .error operand16Or32Only
  | .release => .ok (some (if a.size = 0 then a.withSize 4 else a), none)
  | .interruptNumber =>
      match a.constant? with
      | some n => if n = 3 ∨ (32 ≤ n ∧ n ≤ 255) then .ok (some a, none) else .error invalidInterrupt
      | none => .error invalidInterrupt
  | _ => .ok (some a, none)

/-- Checks the operands of an instruction and completes their widths. -/
def validate (s : Signature) (operands : Operands) : Except ValidationError Operands :=
  if s.rule = .release ∧ operands = (none, none) then .ok operands
  else
    match checkStructure s operands (s.rule ≠ .stateBlock)
        (s.rule ≠ .stateBlock ∧ s.rule ≠ .address) with
    | .error e => .error e
    | .ok () =>
        match operands with
        | (some a, some b) => applyBinaryRule s.rule a b
        | (some a, none) => applyUnaryRule s.rule a
        | _ => .ok operands

end Signature

end ReducedX86
