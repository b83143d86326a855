import ReducedX86.Device.Script
import ReducedX86.Proofs.Execution.Surroundings
import ReducedX86.Proofs.Instruction.Validation
import ReducedX86.Proofs.Memory

/-!
What an instruction may change.

The footprint of an instruction is known before it runs: the registers that it names or that belong
to its operator, runs of bytes in memory at addresses computed beforehand, and the switches of the
processor that its operator is for. Whatever else there is stays. Only `xchg` is left out, whose
second store may go to an address that the first one has changed.
-/
namespace ReducedX86

/-- A run of bytes in the address space, which goes on at zero behind its end. -/
structure Slot where
  start : Word
  size : Nat
  deriving DecidableEq, Repr

def Slot.Covers (s : Slot) (address : Word) : Prop := (address - s.start).toNat < s.size

theorem Slot.covers_of_inside (s : Slot) {address there : Word} {size : Nat}
    (inside : (address - s.start).toNat + size ≤ s.size) (lower : address.toNat ≤ there.toNat)
    (upper : there.toNat < address.toNat + size) : s.Covers there := by
  rw [Covers]
  rw [UInt32.toNat_sub] at inside ⊢
  omega

/-- Byte number `k` of the register bank belongs to the register. -/
def Register.Holds (r : Register) (k : Nat) : Prop := r.offset ≤ k ∧ k < r.offset + r.size

/-- What may be changed: registers, slots of memory, and three switches. -/
structure Footprint where
  registers : List Register := []
  slots : List Slot := []
  direction : Bool := false
  interrupt : Bool := false
  handlerTable : Bool := false
  deriving DecidableEq, Repr

namespace Operator

/-- The operands through which the operator stores. -/
def destinations (op : Operator) (operands : Operands) : List Operand :=
  match op, operands with
  | arithmetic .cmp, _ | logic .test, _ | bits .bt, _ | stack .push, _ | control _, _ | loop _, _
  | jump _, _ | port .output, _ | wide _, _ | system .lidt, _ | system .xsave, _
  | system .xrstor, _ => []
  -- the register selects a byte, which need not be one of the operand
  | bits _, (some (.memory _), some (.register _)) => []
  | transfer .xadd, (first, second) | transfer .xchg, (first, second) =>
      first.toList ++ second.toList
  | _, (first, _) => first.toList

/-- The registers that belong to the operator at a width. -/
def ownRegisters (op : Operator) (size : Nat) : List Register :=
  match op with
  | wide _ => [.accumulator size, Execution.highHalf size]
  | transfer .cmpxchg => [.accumulator size]
  | transfer .xlatb => [.al]
  | string .stos _ | port (.ins _) => [.edi]
  | string .lods w => [.accumulator w.bytes, .esi]
  | string .movs _ => [.esi, .edi]
  | port (.outs _) => [.esi]
  | stack .popad | system .xrstor => Execution.stateBlock
  | stack _ | control .call | control .ret | control .int | control .iret => [.esp]
  | loop _ | rep => [.ecx]
  | system .cwd => [.dx]
  | system .cdq => [.edx]
  | _ => []

/-- The slots that the operator writes besides its destinations. -/
def ownSlots {δ : Type} (op : Operator) (operands : Operands) (p : Processor δ) : List Slot :=
  match op, operands with
  | stack .push, (some src, _) => [⟨p.reg .esp - UInt32.ofNat src.size, src.size⟩]
  | stack .pushfd, _ | control .call, _ => [⟨p.reg .esp - 4, 4⟩]
  | stack .pushad, _ => [⟨p.reg .esp - 32, 32⟩]
  | control .int, _ => [⟨p.reg .esp - 8, 8⟩]
  | string .stos w, _ | string .movs w, _ | port (.ins w), _ => [⟨p.reg .edi, w.bytes⟩]
  | bits .btc, (some (.memory m), some (.register r))
  | bits .btr, (some (.memory m), some (.register r))
  | bits .bts, (some (.memory m), some (.register r)) =>
      [⟨p.addressOf m + Word.ofInt ((p.reg r).signed r.size / 8), 1⟩]
  | system .xsave, (some (.memory m), _) => [⟨p.addressOf m, 36⟩]
  | _, _ => []

def setsDirection : Operator → Bool
  | system .cld | system .std | stack .popfd | control .iret | system .xrstor => true
  | _ => false

def setsInterrupt : Operator → Bool
  | system .cli | system .sti | stack .popfd | control .iret | system .xrstor => true
  | _ => false

end Operator

/-- The slot of an operand in memory. -/
def Operand.slot? {δ : Type} (p : Processor δ) : Operand → Option Slot
  | memory m => some ⟨p.addressOf m, m.size⟩
  | _ => none

/-- What the instruction may change when it runs on a processor. -/
def Instruction.footprint {δ : Type} (i : Instruction) (p : Processor δ) : Footprint :=
  let operands := (i.op1, i.op2)
  let destinations := i.op.destinations operands
  { registers := destinations.filterMap Operand.register? ++
      i.op.ownRegisters ((i.op1.map Operand.size).getD 0)
    slots := destinations.filterMap (Operand.slot? p) ++ i.op.ownSlots operands p
    direction := i.op.setsDirection
    interrupt := i.op.setsInterrupt
    handlerTable := i.op = .system .lidt }

namespace Footprint

variable {δ : Type} {f : Footprint} {p q : Processor δ}

/-- What differs between two processors lies in the footprint. -/
structure Confines (f : Footprint) (p q : Processor δ) : Prop where
  registers : ∀ k, (∀ r ∈ f.registers, ¬ r.Holds k) →
    Bytes.byteAt q.registers.bytes k = Bytes.byteAt p.registers.bytes k
  memory : ∀ address, (∀ s ∈ f.slots, ¬ s.Covers address) →
    q.memory.read address 1 = p.memory.read address 1
  size : q.memory.size = p.memory.size
  direction : f.direction = false → q.flags.direction = p.flags.direction
  interrupt : f.interrupt = false → q.flags.interrupt = p.flags.interrupt
  handlerTable : f.handlerTable = false → q.handlerTable = p.handlerTable

/-- All `size` bytes from an address on lie in a slot. -/
def Spans (f : Footprint) (address : Word) (size : Nat) : Prop :=
  ∃ s ∈ f.slots, (address - s.start).toNat + size ≤ s.size

/-- The footprint has room for what is stored through the operand. -/
def Admits (f : Footprint) (p : Processor δ) : Operand → Prop
  | .register r => r ∈ f.registers
  | .memory m => f.Spans (p.addressOf m) m.size
  | .immediate _ _ | .label _ => True

/-- The footprint has room for all that the operator changes. -/
structure HasRoom (f : Footprint) (op : Operator) (operands : Operands) (p : Processor δ) :
    Prop where
  destinations : ∀ o ∈ op.destinations operands, f.Admits p o
  registers : ∀ r ∈ op.ownRegisters ((operands.1.map Operand.size).getD 0), r ∈ f.registers
  slots : ∀ s ∈ op.ownSlots operands p, s ∈ f.slots
  direction : op.setsDirection → f.direction
  interrupt : op.setsInterrupt → f.interrupt
  handlerTable : op = .system .lidt → f.handlerTable

theorem HasRoom.spans {op : Operator} {operands : Operands} (room : f.HasRoom op operands p) :
    ∀ s ∈ op.ownSlots operands p, f.Spans s.start s.size :=
  fun s own => ⟨s, room.slots s own, by simp⟩

theorem spans_add {start offset : Word} {size total : Nat} (member : ⟨start, total⟩ ∈ f.slots)
    (inside : offset.toNat + size ≤ total) : f.Spans (start + offset) size :=
  ⟨⟨start, total⟩, member, by rwa [show start + offset - start = offset by grind]⟩

theorem Confines.refl (f : Footprint) (p : Processor δ) : f.Confines p p :=
  ⟨fun _ _ => rfl, fun _ _ => rfl, rfl, fun _ => rfl, fun _ => rfl, fun _ => rfl⟩

theorem Confines.symm (h : f.Confines p q) : f.Confines q p where
  registers k outside := (h.registers k outside).symm
  memory address outside := (h.memory address outside).symm
  size := h.size.symm
  direction fixed := (h.direction fixed).symm
  interrupt fixed := (h.interrupt fixed).symm
  handlerTable fixed := (h.handlerTable fixed).symm

theorem Confines.trans {r : Processor δ} (h : f.Confines p q) (h' : f.Confines q r) :
    f.Confines p r where
  registers k outside := (h'.registers k outside).trans (h.registers k outside)
  memory address outside := (h'.memory address outside).trans (h.memory address outside)
  size := h'.size.trans h.size
  direction fixed := (h'.direction fixed).trans (h.direction fixed)
  interrupt fixed := (h'.interrupt fixed).trans (h.interrupt fixed)
  handlerTable fixed := (h'.handlerTable fixed).trans (h.handlerTable fixed)

/-- A change inside the footprint may be looked through. -/
theorem Confines.iff {q' : Processor δ} (step : f.Confines q q') :
    f.Confines p q' ↔ f.Confines p q :=
  ⟨fun h => h.trans step.symm, fun h => h.trans step⟩

@[simp] theorem confines_self : f.Confines p p := .refl f p

@[simp] theorem confines_setReg {r : Register} (named : r ∈ f.registers) (value : Word) :
    f.Confines p (q.setReg r value) ↔ f.Confines p q := by
  refine Confines.iff { Confines.refl f q with registers := fun k outside => ?_ }
  have apart := outside r named
  rw [Register.Holds] at apart
  simp only [Processor.setReg, RegisterFile.set]
  rw [Bytes.byteAt_store, if_neg (by omega)]

@[simp] theorem confines_storeAt {address : Word} {size : Nat} (spans : f.Spans address size)
    (writable : q.memory.writeFault? address size = none) (value : Word) :
    f.Confines p (q.storeAt address value size) ↔ f.Confines p q := by
  refine Confines.iff { Confines.refl f q with memory := fun there outside => ?_, size := ?_ }
  · obtain ⟨s, member, inside⟩ := spans
    have written :=
      (Memory.readFault?_eq_none_iff.mp (Memory.writeFault?_eq_none_iff.mp writable)).1
    refine Memory.read_store_of_apart value written (Decidable.byContradiction fun meets => ?_)
    exact outside s member (s.covers_of_inside inside (by omega) (by omega))
  · exact Memory.size_store ..

@[simp] theorem confines_put {o : Operand} (admits : f.Admits q o)
    (writable : q.writeFault? o = none) (value : Word) :
    f.Confines p (q.put o value) ↔ f.Confines p q := by
  cases o with
  | register r => exact confines_setReg admits value
  | memory m => exact confines_storeAt admits writable _
  | immediate _ _ | label _ => rfl

@[simp] theorem confines_put_register {r : Register} (named : r ∈ f.registers) (value : Word) :
    f.Confines p (q.put (.register r) value) ↔ f.Confines p q := confines_setReg named value

@[simp] theorem confines_withFlags {flags : Flags}
    (direction : flags.direction = q.flags.direction ∨ f.direction)
    (interrupt : flags.interrupt = q.flags.interrupt ∨ f.interrupt) :
    f.Confines p (q.withFlags flags) ↔ f.Confines p q := by
  refine Confines.iff
    { Confines.refl f q with direction := fun fixed => ?_, interrupt := fun fixed => ?_ }
  · exact direction.resolve_right (by simp [fixed])
  · exact interrupt.resolve_right (by simp [fixed])

/-- Apart from registers, memory, flags and handler table there is nothing to confine. -/
theorem Confines.of_same (registers : q.registers = p.registers) (memory : q.memory = p.memory)
    (flags : q.flags = p.flags) (handlerTable : q.handlerTable = p.handlerTable) :
    f.Confines p q := by
  constructor <;> simp [registers, memory, flags, handlerTable]

@[simp] theorem confines_jumpTo (address : Word) :
    f.Confines p (q.jumpTo address) ↔ f.Confines p q := Confines.iff (.of_same rfl rfl rfl rfl)

@[simp] theorem confines_exchanged (buffer : Word) (device : δ) :
    f.Confines p (q.exchanged buffer device) ↔ f.Confines p q :=
  Confines.iff (.of_same rfl rfl rfl rfl)

@[simp] theorem confines_suspended (t : PendingTransfer) :
    f.Confines p (q.suspended t) ↔ f.Confines p q := Confines.iff (.of_same rfl rfl rfl rfl)

@[simp] theorem confines_advance {r : Register} (named : r ∈ f.registers) (size : Nat) :
    f.Confines p (q.advance r size) ↔ f.Confines p q := confines_setReg named _

theorem confines_setRegisters {values : List (Register × Word)}
    (named : ∀ e ∈ values, e.1 ∈ f.registers) :
    f.Confines p (q.setRegisters values) ↔ f.Confines p q := by
  induction values generalizing q with
  | nil => rfl
  | cons e rest ih =>
      exact (ih fun e' later => named e' (List.mem_cons_of_mem e later)).trans
        (confines_setReg (named e List.mem_cons_self) e.2)

@[simp] theorem admits_withFlags {flags : Flags} {o : Operand} :
    f.Admits (q.withFlags flags) o ↔ f.Admits q o := by
  cases o <;> rfl

@[simp] theorem admits_register {r : Register} :
    f.Admits q (.register r) ↔ r ∈ f.registers := Iff.rfl

end Footprint

namespace Flags

variable (f : Flags) (a b r : Word) (n size : Nat) (borrow : Bool)

@[simp] theorem direction_withSignZero : (f.withSignZero r size).direction = f.direction := rfl

@[simp] theorem interrupt_withSignZero : (f.withSignZero r size).interrupt = f.interrupt := rfl

@[simp] theorem direction_afterAdd : (f.afterAdd a b n size).direction = f.direction := rfl

@[simp] theorem interrupt_afterAdd : (f.afterAdd a b n size).interrupt = f.interrupt := rfl

@[simp] theorem direction_afterSub : (f.afterSub a b r borrow size).direction = f.direction := rfl

@[simp] theorem interrupt_afterSub : (f.afterSub a b r borrow size).interrupt = f.interrupt := rfl

@[simp] theorem direction_afterLogic : (f.afterLogic r size).direction = f.direction := rfl

@[simp] theorem interrupt_afterLogic : (f.afterLogic r size).interrupt = f.interrupt := rfl

end Flags

@[simp] theorem Processor.reg_exchanged {δ : Type} (p : Processor δ) (buffer : Word) (device : δ)
    (r : Register) : (p.exchanged buffer device).reg r = p.reg r := rfl

namespace Execution

variable {δ : Type} {f : Footprint} {p : Processor δ}

/-- What the action changes, if it succeeds, lies in the footprint. -/
def Confined (f : Footprint) (x : Execution δ Unit) (p : Processor δ) : Prop :=
  Outcome x (fun _ q => f.Confines p q) (fun _ _ => True) p

theorem Confined.pure : Confined f (pure ()) p := Footprint.Confines.refl f p

theorem switches_shiftFlags (op : ShiftOp) (a r : Word) (n size : Nat) (carry : Bool) (g : Flags) :
    (shiftFlags op a r n size carry g).direction = g.direction ∧
      (shiftFlags op a r n size carry g).interrupt = g.interrupt := by
  unfold shiftFlags
  cases isRotation op <;> exact ⟨rfl, rfl⟩

section Operands

variable {operands : Operands}

theorem arithmetic_confined {op : ArithmeticOp} (room : f.HasRoom (.arithmetic op) operands p) :
    Confined f (arithmetic op operands) p := by
  have admits := room.destinations
  rw [Confined]
  obtain ⟨dst | dst, src | src⟩ := operands <;> cases op <;>
    simp_all +contextual [Operator.destinations, arithmetic, unaryArithmetic, binaryArithmetic]

theorem logic_confined {op : LogicOp} (room : f.HasRoom (.logic op) operands p) :
    Confined f (logic op operands) p := by
  have admits := room.destinations
  rw [Confined]
  obtain ⟨dst | dst, src | src⟩ := operands <;> cases op <;>
    simp_all +contextual [Operator.destinations, logic]

theorem shift_confined {op : ShiftOp} (room : f.HasRoom (.shift op) operands p) :
    Confined f (shift op operands) p := by
  have admits := room.destinations
  rw [Confined]
  obtain ⟨dst | dst, count | count⟩ := operands <;>
    simp_all +contextual [Operator.destinations, shift, switches_shiftFlags]

theorem testBitString_confined {op : BitOp} {m : MemoryOperand} {r : Register}
    (room : f.HasRoom (.bits op) (some (.memory m), some (.register r)) p) :
    Confined f (testBitString op m ((p.reg r).signed r.size)) p := by
  have slots := room.spans
  rw [Confined]
  cases op <;>
    simp_all +contextual [Operator.ownSlots, testBitString, setCarry, changedBit?]

theorem testOperandBit_confined {op : BitOp} {dst : Operand} {i : Nat}
    (admits : op ≠ .bt → f.Admits p dst) : Confined f (testOperandBit op dst i) p := by
  rw [Confined]
  cases op <;> simp_all +contextual [testOperandBit, setCarry, changedBit?]

theorem bits_confined {op : BitOp} (room : f.HasRoom (.bits op) operands p)
    (target : op = .bsf ∨ op = .bsr → ∀ a, operands.1 = some a → a.kind = .register) :
    Confined f (bits op operands) p := by
  have admits := room.destinations
  obtain ⟨dst | dst, src | src⟩ := operands
  · exact Confined.pure
  · exact Confined.pure
  · exact Confined.pure
  · cases op with
    | bsf | bsr =>
        obtain ⟨r, rfl⟩ := Operand.eq_register_of_kind (target (by simp) dst rfl)
        rw [Confined]
        simp_all [Operator.destinations, bits, scanBits]
    | bt | btc | btr | bts =>
        simp only [Confined, bits, outcome_bind, outcome_read]
        refine ⟨fun _ _ => trivial, fun _ => ?_⟩
        split
        · exact testBitString_confined room
        · rename_i other
          apply testOperandBit_confined
          intro changes
          apply admits
          simp_all [Operator.destinations]

theorem transfer_confined {op : TransferOp} (room : f.HasRoom (.transfer op) operands p)
    (other : op ≠ .xchg)
    (source : op = .xadd → ∀ b, operands.2 = some b → b.kind = .register) :
    Confined f (transfer op operands) p := by
  have admits := room.destinations
  have registers := room.registers
  rw [Confined]
  obtain ⟨dst | dst, src | src⟩ := operands
  · cases op <;> simp_all [Operator.ownRegisters, transfer, translate]
  · cases op <;> simp_all [Operator.ownRegisters, transfer, translate]
  · cases op <;>
      simp_all +contextual [Operator.destinations, Operator.ownRegisters, transfer, translate]
  · cases op with
    | xchg => exact absurd rfl other
    | xadd =>
        obtain ⟨r, rfl⟩ := Operand.eq_register_of_kind (source rfl src rfl)
        simp_all +contextual [Operator.destinations, transfer, exchangeAdd]
    | lea => cases src <;> simp_all +contextual [Operator.destinations, transfer]
    | _ =>
        simp_all +contextual [Operator.destinations, Operator.ownRegisters, transfer, translate,
          compareExchange]

theorem conditionalMove_confined {c : Condition} (room : f.HasRoom (.move c) operands p) :
    Confined f (conditionalMove c operands) p := by
  have admits := room.destinations
  rw [Confined]
  obtain ⟨dst | dst, src | src⟩ := operands <;>
    simp_all +contextual [Operator.destinations, conditionalMove]

theorem conditionalSet_confined {c : Condition} (room : f.HasRoom (.set c) operands p) :
    Confined f (conditionalSet c operands) p := by
  have admits := room.destinations
  rw [Confined]
  obtain ⟨dst | dst, src⟩ := operands <;>
    simp_all +contextual [Operator.destinations, conditionalSet]

theorem loop_confined {op : LoopOp} (room : f.HasRoom (.loop op) operands p) :
    Confined f (loop op operands) p := by
  have ecx := room.registers .ecx (List.mem_singleton.mpr rfl)
  rw [Confined]
  obtain ⟨target | target, src⟩ := operands <;> simp [loop, ecx]

theorem conditionalJump_confined {c : Condition} : Confined f (conditionalJump c operands) p := by
  rw [Confined]
  obtain ⟨target | target, src⟩ := operands <;> simp [conditionalJump]

theorem countRepetition_confined (room : f.HasRoom .rep operands p) :
    Confined f (discard countRepetition) p := by
  have ecx := room.registers .ecx (List.mem_singleton.mpr rfl)
  rw [Confined]
  simp [countRepetition, ecx]

theorem string_confined {op : StringOp} {w : Width}
    (room : f.HasRoom (.string op w) operands p) : Confined f (string op w) p := by
  have registers := room.registers
  have slots := room.spans
  rw [Confined]
  cases op <;> simp_all +contextual [string, Operator.ownRegisters, Operator.ownSlots]

theorem wide_confined {op : WideOp} (room : f.HasRoom (.wide op) operands p) :
    Confined f (wide op operands) p := by
  have registers := room.registers
  rw [Confined]
  obtain ⟨src | src, b⟩ := operands
  · exact Confined.pure
  · cases op <;>
      simp_all [Operator.ownRegisters, wide, multiply, multiplySigned, divide, divideSigned,
        setProduct, setHalves, dividend]

/-- Consecutive words stay in a slot that has room for all of them. -/
theorem writeRegisters_confined {start offset : Word} {total : Nat} {rs : List Register}
    (member : ⟨start, total⟩ ∈ f.slots) (small : total < UInt32.size)
    (inside : offset.toNat + 4 * rs.length ≤ total) :
    Confined f (writeRegisters (start + offset) rs) p := by
  induction rs generalizing offset p with
  | nil => exact Confined.pure
  | cons r rest ih =>
      rw [List.length_cons] at inside
      have next : (offset + 4).toNat = offset.toNat + 4 := by
        have four : (4 : Word).toNat = 4 := rfl
        rw [UInt32.size] at small
        rw [UInt32.toNat_add, four]
        omega
      have spans : f.Spans (start + offset) 4 := Footprint.spans_add member (by omega)
      have later (q : Processor δ) : Confined f (writeRegisters (start + offset + 4) rest) q := by
        rw [UInt32.add_assoc]
        exact ih (by omega)
      simp only [Confined, writeRegisters, outcome_bind, outcome_reg, outcome_writeMemory]
      refine ⟨fun _ _ => trivial, fun writable => (later _).mono ?_ fun _ _ _ => trivial⟩
      intro _ q confines
      exact ((Footprint.confines_storeAt spans writable _).mpr (.refl f p)).trans confines

theorem pushAll_confined (room : f.HasRoom (.stack .pushad) operands p) :
    Confined f pushAll p := by
  have esp := room.registers .esp (List.mem_singleton.mpr rfl)
  have slot := room.slots ⟨p.reg .esp - 32, 32⟩ (List.mem_singleton.mpr rfl)
  have stored : Confined f (writeRegisters (p.reg .esp - 32) stackBlock) p := by
    rw [← UInt32.add_zero (p.reg .esp - 32)]
    exact writeRegisters_confined slot (by decide) (by decide)
  simp only [Confined, pushAll, outcome_bind, outcome_reg, outcome_discard, outcome_setReg]
  refine stored.mono (fun _ q confines => ?_) fun _ _ _ => trivial
  exact (Footprint.confines_setReg esp _).mpr confines

theorem popAll_confined (room : f.HasRoom (.stack .popad) operands p) : Confined f popAll p := by
  have all : ∀ r ∈ stackBlock, r ∈ stateBlock := by decide
  have named : ∀ r ∈ stackBlock, r ∈ f.registers :=
    fun r member => room.registers r (all r member)
  simp only [Confined, popAll, outcome_bind, outcome_reg, outcome_readWords, outcome_setRegisters,
    outcome_discard, outcome_setReg]
  refine ⟨fun _ _ => trivial, fun _ => ?_⟩
  refine (Footprint.confines_setReg (named .esp (by decide)) _).mpr ?_
  refine (Footprint.confines_setRegisters fun e member => ?_).mpr (.refl f p)
  exact named e.1 (List.of_mem_zip (List.mem_filter.mp member).1).1

theorem stack_confined {op : StackOp} (room : f.HasRoom (.stack op) operands p) :
    Confined f (stack op operands) p := by
  cases op with
  | pushad => exact pushAll_confined room
  | popad => exact popAll_confined room
  | _ =>
      have admits := room.destinations
      have registers := room.registers
      have slots := room.spans
      have direction := room.direction
      have interrupt := room.interrupt
      rw [Confined]
      obtain ⟨a | a, b⟩ := operands <;>
        simp_all +contextual [Operator.destinations, Operator.ownRegisters, Operator.ownSlots,
          Operator.setsDirection, Operator.setsInterrupt, stack, push, pop, popTo]

theorem enterHandler_confined {number : Word} (room : f.HasRoom (.control .int) operands p) :
    Confined f (enterHandler number) p := by
  have esp := room.registers .esp (List.mem_singleton.mpr rfl)
  have slot := room.slots ⟨p.reg .esp - 8, 8⟩ (List.mem_singleton.mpr rfl)
  have lower : f.Spans (p.reg .esp - 8) 4 := ⟨_, slot, by simp⟩
  have upper : f.Spans (p.reg .esp - 4) 4 := by
    rw [show p.reg .esp - 4 = p.reg .esp - 8 + 4 by grind]
    exact Footprint.spans_add slot (by decide)
  rw [Confined]
  simp_all +contextual [enterHandler]

theorem interrupt_confined {number : Word} (room : f.HasRoom (.control .int) operands p) :
    Confined f (interrupt number) p := by
  unfold interrupt
  split
  · exact Footprint.Confines.of_same rfl rfl rfl rfl
  · exact enterHandler_confined room

theorem control_confined {op : ControlOp} (room : f.HasRoom (.control op) operands p) :
    Confined f (control op operands) p := by
  have registers := room.registers
  have slots := room.spans
  have direction := room.direction
  have interrupt := room.interrupt
  cases op with
  | hlt =>
      obtain ⟨a | a, b⟩ := operands
      · exact Footprint.Confines.of_same rfl rfl rfl rfl
      · exact Footprint.Confines.of_same rfl rfl rfl rfl
  | int =>
      obtain ⟨a | a, b⟩ := operands
      · exact Confined.pure
      · simp only [Confined, control, outcome_bind, outcome_read]
        exact ⟨fun _ _ => trivial, fun _ => interrupt_confined room⟩
  | _ =>
      rw [Confined]
      obtain ⟨a | a, b⟩ := operands <;>
        simp_all +contextual [Operator.ownRegisters, Operator.ownSlots, Operator.setsDirection,
          Operator.setsInterrupt, control, call, push, ret, interruptReturn]

theorem port_confined [PortDevice δ] {op : PortOp} (room : f.HasRoom (.port op) operands p) :
    Confined f (port op operands) p := by
  have admits := room.destinations
  have registers := room.registers
  have slots := room.spans
  rw [Confined]
  unfold port
  split
  · simp_all [Operator.destinations, inputTo]
  · simp [outputFrom]
  · simp_all +contextual [Operator.ownRegisters, Operator.ownSlots, inputString]
  · simp_all +contextual [Operator.ownRegisters, outputString]
  · simp

theorem saveState_confined {m : MemoryOperand} {src : Option Operand}
    (room : f.HasRoom (.system .xsave) (some (.memory m), src) p) :
    Confined f (saveState m) p := by
  have slot := room.slots ⟨p.addressOf m, 36⟩ (List.mem_singleton.mpr rfl)
  have first : f.Spans (p.addressOf m) 4 := ⟨_, slot, by simp⟩
  have last : f.Spans (p.addressOf m + 32) 4 := Footprint.spans_add slot (by decide)
  have middle (q : Processor δ) :
      Confined f (writeRegisters (p.addressOf m + 4) stateBlock.tail) q :=
    writeRegisters_confined slot (by decide) (by decide)
  simp only [Confined, saveState, outcome_bind, outcome_get, outcome_reg, outcome_writeMemory]
  refine ⟨fun _ _ => trivial, fun below => ⟨fun _ _ => trivial, fun above => ?_⟩⟩
  refine (middle _).mono (fun _ q confines => .trans ?_ confines) fun _ _ _ => trivial
  rw [Footprint.confines_storeAt last above, Footprint.confines_storeAt first below]
  exact .refl f p

theorem restoreState_confined {m : MemoryOperand}
    (room : f.HasRoom (.system .xrstor) operands p) : Confined f (restoreState m) p := by
  have named : ∀ r ∈ stateBlock, r ∈ f.registers := room.registers
  simp only [Confined, restoreState, outcome_bind, outcome_get, outcome_readWords,
    outcome_readMemory, outcome_setRegisters, outcome_setFlags]
  refine ⟨fun _ _ => trivial, fun _ => ⟨fun _ _ => trivial, fun _ => ?_⟩⟩
  rw [Footprint.confines_withFlags (.inr (room.direction rfl)) (.inr (room.interrupt rfl))]
  refine (Footprint.confines_setRegisters fun e member => ?_).mpr (.refl f p)
  exact named e.1 (List.of_mem_zip member).1

theorem random_confined {dst : Operand} (admits : f.Admits p dst) : Confined f (random dst) p := by
  simp only [Confined, random, outcome_bind, outcome_setFlags, outcome_draw, outcome_discard,
    outcome_write]
  refine ⟨fun _ _ => trivial, fun writable => ?_⟩
  rw [Footprint.confines_put (by cases dst <;> exact admits) writable]
  exact { Footprint.Confines.refl f p with direction := fun _ => rfl, interrupt := fun _ => rfl }

theorem system_confined {op : SystemOp} (room : f.HasRoom (.system op) operands p) :
    Confined f (system op operands) p := by
  have admits := room.destinations
  have registers := room.registers
  have direction := room.direction
  have interrupt := room.interrupt
  have handlerTable := room.handlerTable
  obtain ⟨a | a, b⟩ := operands
  · rw [Confined]
    cases op <;>
      simp_all +contextual [Operator.ownRegisters, Operator.setsDirection, Operator.setsInterrupt,
        system, fillHigh]
  · cases op with
    | xsave =>
        cases a with
        | memory m => exact saveState_confined room
        | _ => exact Confined.pure
    | xrstor =>
        cases a with
        | memory m => exact restoreState_confined room
        | _ => exact Confined.pure
    | lidt =>
        simp only [Confined, system, outcome_bind, outcome_read, outcome_modify]
        exact ⟨fun _ _ => trivial, fun _ =>
          { Footprint.Confines.refl f p with
            handlerTable := fun fixed => absurd (handlerTable rfl) (by simp [fixed]) }⟩
    | rdrand => exact random_confined (admits a (List.mem_singleton.mpr rfl))
    | _ =>
        rw [Confined]
        simp_all +contextual [Operator.destinations, Operator.ownRegisters, Operator.setsDirection,
          Operator.setsInterrupt, system, fillHigh]

end Operands

end Execution

namespace Instruction

variable {δ : Type} {i : Instruction} {p q : Processor δ}

theorem hasRoom_footprint (i : Instruction) (p : Processor δ) :
    (i.footprint p).HasRoom i.op (i.op1, i.op2) p where
  destinations o member := by
    cases o with
    | register r =>
        exact List.mem_append_left _ (List.mem_filterMap.mpr ⟨.register r, member, rfl⟩)
    | memory m =>
        have slot : ⟨p.addressOf m, m.size⟩ ∈ (i.footprint p).slots :=
          List.mem_append_left _ (List.mem_filterMap.mpr ⟨.memory m, member, rfl⟩)
        exact ⟨_, slot, by simp⟩
    | immediate _ _ | label _ => trivial
  registers _ own := List.mem_append_right _ own
  slots _ own := List.mem_append_right _ own
  direction sets := sets
  interrupt sets := sets
  handlerTable isLidt := decide_eq_true isLidt

theorem execute_confined [PortDevice δ] (valid : i.Validated) (other : i.op ≠ .transfer .xchg)
    {f : Footprint} (room : f.HasRoom i.op (i.op1, i.op2) p) :
    Execution.Confined f i.execute p := by
  obtain ⟨first, second⟩ := valid.kinds
  obtain ⟨op, op1, op2, position⟩ := i
  cases op with
  | arithmetic op => exact Execution.arithmetic_confined room
  | logic op => exact Execution.logic_confined room
  | shift op => exact Execution.shift_confined room
  | bits op =>
      apply Execution.bits_confined room
      rintro (rfl | rfl) a given
      · exact List.mem_singleton.mp (first a given)
      · exact List.mem_singleton.mp (first a given)
  | transfer op =>
      apply Execution.transfer_confined room (fun same => other (congrArg _ same))
      rintro rfl b given
      exact List.mem_singleton.mp (second b given)
  | stack op => exact Execution.stack_confined room
  | control op => exact Execution.control_confined room
  | loop op => exact Execution.loop_confined room
  | jump c => exact Execution.conditionalJump_confined
  | move c => exact Execution.conditionalMove_confined room
  | set c => exact Execution.conditionalSet_confined room
  | string op w => exact Execution.string_confined room
  | port op => exact Execution.port_confined room
  | wide op => exact Execution.wide_confined room
  | system op => exact Execution.system_confined room
  | rep => exact Execution.countRepetition_confined room

/-- An instruction that succeeds changes nothing outside its footprint. -/
theorem execute_within_footprint [PortDevice δ] (valid : i.Validated)
    (other : i.op ≠ .transfer .xchg) (ran : i.execute.run p = .ok () q) :
    (i.footprint p).Confines p q :=
  (execute_confined valid other (i.hasRoom_footprint p)).of_ok ran

/-- A bit index of minus one selects the byte below the operand. -/
theorem bts_within_footprint :
    let i : Instruction :=
      { op := .bits .bts
        op1 := some (.memory { size := 4, displacement := 1028 })
        op2 := some (.register .eax) }
    let p := (.new 16 {} default : Processor Script).setReg .eax 0xFFFFFFFF
    ∃ q, i.execute.run p = .ok () q ∧ q.memory.bytes.data ≠ p.memory.bytes.data ∧
      i.footprint p = { slots := [⟨1027, 1⟩] } ∧ (i.footprint p).Confines p q := by
  intro i p
  have valid : i.Validated := ⟨(i.op1, i.op2), rfl⟩
  have other : i.op ≠ .transfer .xchg := by decide
  have changes : (match i.execute.run p with
      | .ok _ q => q.memory.bytes.data != p.memory.bytes.data
      | .error _ _ => false) = true := by decide +kernel
  cases ran : i.execute.run p with
  | error fault q => rw [ran] at changes; cases changes
  | ok _ q =>
      rw [ran] at changes
      refine ⟨q, rfl, bne_iff_ne.mp changes, by decide +kernel, ?_⟩
      exact execute_within_footprint valid other ran

end Instruction

end ReducedX86
