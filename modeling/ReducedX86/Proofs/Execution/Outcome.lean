import ReducedX86.Execution.Instruction
import ReducedX86.Proofs.Memory
import ReducedX86.Proofs.Outcome

/-!
How the actions end of which instructions are made.

An operand is read or written without a fault or with the one that `readFault?` or `writeFault?`
tells; both leave the processor alone.
-/
namespace ReducedX86

variable {δ : Type}

namespace Processor

/-- Why an operand cannot be read, if it cannot. -/
def readFault? (p : Processor δ) : Operand → Option Fault
  | .memory m => p.memory.readFault? (p.addressOf m) m.size
  | _ => none

/-- Why nothing can be stored through an operand, if nothing can. -/
def writeFault? (p : Processor δ) : Operand → Option Fault
  | .memory m => p.memory.writeFault? (p.addressOf m) m.size
  | _ => none

/-- The value of an operand that can be read. -/
def valueOf (p : Processor δ) : Operand → Word
  | .register r => p.reg r
  | .memory m => p.memory.load (p.addressOf m) m.size
  | .immediate value size => Operand.cut value size
  | .label address => address

def withFlags (p : Processor δ) (flags : Flags) : Processor δ := { p with flags }

def jumpTo (p : Processor δ) (address : Word) : Processor δ := { p with nextInstruction := address }

/-- Stores the low bytes of a value at an address that can be written. -/
def storeAt (p : Processor δ) (address value : Word) (size : Nat) : Processor δ :=
  { p with memory := p.memory.store address value size }

/-- Stores a value through an operand that can be written. -/
def put (p : Processor δ) (o : Operand) (value : Word) : Processor δ :=
  match o with
  | .register r => p.setReg r value
  | .memory m => p.storeAt (p.addressOf m) (value.truncate m.size) m.size
  | .immediate _ _ | .label _ => p

/-- Why `count` consecutive words cannot be read, if they cannot. -/
def wordsFault? (p : Processor δ) (address : Word) : Nat → Option Fault
  | 0 => none
  | count + 1 => (p.memory.readFault? address 4).or (p.wordsFault? (address + 4) count)

def wordsAt (p : Processor δ) (address : Word) : Nat → List Word
  | 0 => []
  | count + 1 => p.memory.load address 4 :: p.wordsAt (address + 4) count

def setRegisters (p : Processor δ) (values : List (Register × Word)) : Processor δ :=
  values.foldl (fun q (r, value) => q.setReg r value) p

@[simp] theorem withFlags_memory (p : Processor δ) (flags : Flags) :
    (p.withFlags flags).memory = p.memory := rfl

@[simp] theorem readFault?_register (p : Processor δ) (r : Register) :
    p.readFault? (.register r) = none := rfl

@[simp] theorem readFault?_immediate (p : Processor δ) (value : Word) (size : Nat) :
    p.readFault? (.immediate value size) = none := rfl

@[simp] theorem readFault?_label (p : Processor δ) (address : Word) :
    p.readFault? (.label address) = none := rfl

@[simp] theorem writeFault?_register (p : Processor δ) (r : Register) :
    p.writeFault? (.register r) = none := rfl

@[simp] theorem writeFault?_withFlags (p : Processor δ) (flags : Flags) (o : Operand) :
    (p.withFlags flags).writeFault? o = p.writeFault? o := by
  cases o <;> rfl

/-- What can be read can be written. -/
theorem writeFault?_of_readFault? {p : Processor δ} {o : Operand} (h : p.readFault? o = none) :
    p.writeFault? o = none := by
  cases o with
  | memory m => exact Memory.writeFault?_eq_none_iff.mpr h
  | register _ | immediate _ _ | label _ => rfl

end Processor

/-- What storing a value through an operand returns. -/
def Operand.stored (o : Operand) (value : Word) : Word :=
  match o with
  | .label _ => value
  | _ => value.truncate o.size

namespace Execution

variable {failed : Fault → Processor δ → Prop} {p : Processor δ}

@[simp] theorem outcome_reg {done : Word → Processor δ → Prop} (r : Register) :
    Outcome (reg r) done failed p ↔ done (p.reg r) p := Iff.rfl

@[simp] theorem outcome_setReg {done : Word → Processor δ → Prop} (r : Register) (value : Word) :
    Outcome (setReg r value) done failed p ↔ done (value.truncate r.size) (p.setReg r value) := Iff.rfl

@[simp] theorem outcome_setFlags {done : Unit → Processor δ → Prop} (f : Flags → Flags) :
    Outcome (setFlags f) done failed p ↔ done () (p.withFlags (f p.flags)) := Iff.rfl

@[simp] theorem outcome_draw {done : Word → Processor δ → Prop} :
    Outcome draw done failed p ↔ done p.draws.head { p with draws := p.draws.tail } := Iff.rfl

@[simp] theorem outcome_jump {done : Unit → Processor δ → Prop} (address : Word) :
    Outcome (jump address) done failed p ↔ done () (p.jumpTo address) := Iff.rfl

@[simp] theorem outcome_advance {done : Unit → Processor δ → Prop} (r : Register) (size : Nat) :
    Outcome (advance r size) done failed p ↔ done () (p.advance r size) := Iff.rfl

@[simp] theorem outcome_readMemory {done : Word → Processor δ → Prop} (address : Word) (size : Nat) :
    Outcome (readMemory address size) done failed p ↔
      (∀ f, p.memory.readFault? address size = some f → failed f p) ∧
        (p.memory.readFault? address size = none → done (p.memory.load address size) p) := by
  simp only [Outcome, readMemory, EStateM.run]
  cases p.memory.readFault? address size <;> simp

@[simp] theorem outcome_writeMemory {done : Unit → Processor δ → Prop} (address value : Word)
    (size : Nat) :
    Outcome (writeMemory address value size) done failed p ↔
      (∀ f, p.memory.writeFault? address size = some f → failed f p) ∧
        (p.memory.writeFault? address size = none → done () (p.storeAt address value size)) := by
  simp only [Outcome, writeMemory, EStateM.run]
  cases p.memory.writeFault? address size <;> simp [Processor.storeAt]

@[simp] theorem outcome_read {done : Word → Processor δ → Prop} (o : Operand) :
    Outcome (read o) done failed p ↔
      (∀ f, p.readFault? o = some f → failed f p) ∧
        (p.readFault? o = none → done (p.valueOf o) p) := by
  cases o <;> simp [read, Processor.readFault?, Processor.valueOf]

@[simp] theorem outcome_write {done : Word → Processor δ → Prop} (o : Operand) (value : Word) :
    Outcome (write o value) done failed p ↔
      (∀ f, p.writeFault? o = some f → failed f p) ∧
        (p.writeFault? o = none → done (o.stored value) (p.put o value)) := by
  cases o <;>
    simp [write, Processor.writeFault?, Processor.put, Operand.stored, Operand.size]

@[simp] theorem outcome_readWords {done : List Word → Processor δ → Prop} (address : Word)
    (count : Nat) :
    Outcome (readWords address count) done failed p ↔
      (∀ f, p.wordsFault? address count = some f → failed f p) ∧
        (p.wordsFault? address count = none → done (p.wordsAt address count) p) := by
  induction count generalizing address done with
  | zero => simp [readWords, Processor.wordsFault?, Processor.wordsAt]
  | succ count ih =>
      simp only [readWords, outcome_bind, outcome_readMemory, ih, outcome_pure,
        Processor.wordsFault?, Processor.wordsAt]
      cases p.memory.readFault? address 4 <;> simp

@[simp] theorem outcome_setRegisters {done : Unit → Processor δ → Prop}
    (values : List (Register × Word)) :
    Outcome (setRegisters values) done failed p ↔ done () (p.setRegisters values) := by
  induction values generalizing p with
  | nil => rfl
  | cons value rest ih => exact ih

end Execution

end ReducedX86
