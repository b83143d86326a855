import ReducedX86.Register

/-!
Operands of instructions.

A memory operand is a formula over registers, evaluated anew at every access. Width zero means
that the width is not known yet; validation may give such an operand the width of its sibling.
-/
namespace ReducedX86

inductive Scale
  | one | two | four | eight
  deriving DecidableEq, Repr, Inhabited

def Scale.factor : Scale → Word
  | one => 1
  | two => 2
  | four => 4
  | eight => 8

def Scale.ofFactor? (factor : Word) : Option Scale :=
  if factor = 1 then some one
  else if factor = 2 then some two
  else if factor = 4 then some four
  else if factor = 8 then some eight
  else none

/-- `[base + index * scale + displacement]` and the width of the access. -/
structure MemoryOperand where
  base : Option Register := none
  index : Option Register := none
  scale : Scale := .one
  displacement : Word := 0
  size : Nat := 0
  deriving DecidableEq, Repr, Inhabited

/-- The address a memory operand names while the registers are as given. -/
def MemoryOperand.address (m : MemoryOperand) (registers : RegisterFile) : Word :=
  let fromBase := match m.base with
    | some r => registers.get r
    | none => 0
  let fromIndex := match m.index with
    | some r => registers.get r * m.scale.factor
    | none => 0
  m.displacement + fromBase + fromIndex

inductive Operand
  | register (r : Register)
  | memory (m : MemoryOperand)
  | immediate (value : Word) (size : Nat)
  | label (address : Word)
  deriving DecidableEq, Repr, Inhabited

/-- The kinds that a position of an instruction may admit. -/
inductive OperandKind
  | register | memory | immediate | label
  deriving DecidableEq, Repr, Inhabited

namespace Operand

def kind : Operand → OperandKind
  | register _ => .register
  | memory _ => .memory
  | immediate _ _ => .immediate
  | label _ => .label

/-- The width in bytes, zero while unknown. -/
def size : Operand → Nat
  | register r => r.size
  | memory m => m.size
  | immediate _ size => size
  | label _ => 4

/-- The operand at another width; registers and labels keep theirs. -/
def withSize (o : Operand) (size : Nat) : Operand :=
  match o with
  | memory m => memory { m with size }
  | immediate value _ => immediate value size
  | register _ | label _ => o

def register? : Operand → Option Register
  | register r => some r
  | _ => none

def isMemory : Operand → Bool
  | memory _ => true
  | _ => false

/-- A constant cut to its width; one of unknown width is left whole. -/
def cut (value : Word) (size : Nat) : Word :=
  if size == 0 then value else value.truncate size

/-- The value of an operand that does not depend on registers or memory. -/
def constant? : Operand → Option Word
  | immediate value size => some (cut value size)
  | label address => some address
  | _ => none

end Operand

end ReducedX86
