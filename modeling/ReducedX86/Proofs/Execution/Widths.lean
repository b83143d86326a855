import ReducedX86.Device.Script
import ReducedX86.Proofs.Assembly.TwoPass
import ReducedX86.Proofs.Execution.Outcome

/-!
Faults of access widths.

Validation is there to keep them out of assembled programs, and does so for all instructions but
three: shifts, calls and jumps may have a memory operand of unknown width. Such an operand can
never be read, and where its address is in data memory, reading it is a fault of width zero.
-/
namespace ReducedX86

variable {δ : Type} {p : Processor δ}

def Fault.IsWidth : Fault → Prop
  | invalidReadSize _ | invalidWriteSize _ => True
  | _ => False

@[simp] theorem Fault.divisionByZero_not_isWidth : ¬ divisionByZero.IsWidth := id

@[simp] theorem Fault.divisionOverflow_not_isWidth : ¬ divisionOverflow.IsWidth := id

/-- If the operand is in memory, then at a width that memory can be accessed at. -/
def Operand.Accessible (o : Operand) : Prop := o.isMemory → Memory.isAccessSize o.size

theorem Operand.accessible_of_size {o : Operand} (h : Memory.isAccessSize o.size) :
    o.Accessible := fun _ => h

theorem Operand.accessible_of_kind {o : Operand} (h : o.kind ≠ .memory) : o.Accessible := by
  cases o with
  | memory m => exact absurd rfl h
  | register _ | immediate _ _ | label _ => nofun

@[simp] theorem Width.isAccessSize_bytes (w : Width) : Memory.isAccessSize w.bytes := by
  cases w <;> rfl

@[simp] theorem Memory.isAccessSize_one : isAccessSize 1 := by decide

@[simp] theorem Memory.isAccessSize_four : isAccessSize 4 := by decide

namespace Memory

variable {size : Nat}

@[simp] theorem readFault?_not_isWidth (h : isAccessSize size) (m : Memory) (address : Word) :
    (∀ f, m.readFault? address size = some f → ¬ f.IsWidth) ↔ True := by
  simp only [iff_true, readFault?]
  grind [Fault.IsWidth]

@[simp] theorem writeFault?_not_isWidth (h : isAccessSize size) (m : Memory) (address : Word) :
    (∀ f, m.writeFault? address size = some f → ¬ f.IsWidth) ↔ True := by
  simp only [iff_true, writeFault?]
  grind [Fault.IsWidth]

end Memory

namespace Processor

@[simp] theorem readFault?_not_isWidth {o : Operand} (h : o.Accessible) (p : Processor δ) :
    (∀ f, p.readFault? o = some f → ¬ f.IsWidth) ↔ True := by
  cases o with
  | memory m =>
      have width : Memory.isAccessSize m.size := h rfl
      exact Memory.readFault?_not_isWidth width _ _
  | register _ | immediate _ _ | label _ => simp

@[simp] theorem writeFault?_not_isWidth {o : Operand} (h : o.Accessible) (p : Processor δ) :
    (∀ f, p.writeFault? o = some f → ¬ f.IsWidth) ↔ True := by
  cases o with
  | memory m =>
      have width : Memory.isAccessSize m.size := h rfl
      exact Memory.writeFault?_not_isWidth width _ _
  | register _ | immediate _ _ | label _ => simp [writeFault?]

theorem readFault?_of_unsized {m : MemoryOperand} (unknown : m.size = 0) (p : Processor δ) :
    p.readFault? (.memory m) =
      some (if p.memory.inRange (p.addressOf m) 0 then .invalidReadSize 0
        else .invalidReadAddress (p.addressOf m)) := by
  simp only [Processor.readFault?, Memory.readFault?, unknown]
  cases p.memory.inRange (p.addressOf m) 0 <;> rfl

@[simp] theorem wordsFault?_not_isWidth (p : Processor δ) (address : Word) (count : Nat) :
    (∀ f, p.wordsFault? address count = some f → ¬ f.IsWidth) ↔ True := by
  rw [iff_true]
  induction count generalizing address with
  | zero => simp [wordsFault?]
  | succ count ih =>
      have first := (Memory.readFault?_not_isWidth Memory.isAccessSize_four p.memory address).mpr
        trivial
      intro f fault
      rw [wordsFault?, Option.or_eq_some_iff] at fault
      rcases fault with fault | ⟨-, fault⟩
      · exact first f fault
      · exact ih (address + 4) f fault

end Processor

namespace Execution

def NoWidthFault (x : Execution δ Unit) : Prop :=
  ∀ p, Outcome x (fun _ _ => True) (fun f _ => ¬ f.IsWidth) p

theorem NoWidthFault.pure : NoWidthFault (pure () : Execution δ Unit) := by
  intro p
  trivial

section Operands

variable {operands : Operands} (first : ∀ a, operands.1 = some a → a.Accessible)
  (second : ∀ b, operands.2 = some b → b.Accessible)

include first second

theorem arithmetic_noWidthFault (op : ArithmeticOp) :
    NoWidthFault (arithmetic (δ := δ) op operands) := by
  intro p
  obtain ⟨dst | dst, src | src⟩ := operands <;> cases op <;>
    simp_all [arithmetic, unaryArithmetic, binaryArithmetic]

theorem logic_noWidthFault (op : LogicOp) : NoWidthFault (logic (δ := δ) op operands) := by
  intro p
  obtain ⟨dst | dst, src | src⟩ := operands <;> cases op <;> simp_all [logic]

theorem shift_noWidthFault (op : ShiftOp) : NoWidthFault (shift (δ := δ) op operands) := by
  intro p
  obtain ⟨dst | dst, count | count⟩ := operands <;> simp_all [shift]

theorem bits_noWidthFault (op : BitOp) : NoWidthFault (bits (δ := δ) op operands) := by
  intro p
  obtain ⟨dst | dst, src | src⟩ := operands
  · exact NoWidthFault.pure p
  · exact NoWidthFault.pure p
  · exact NoWidthFault.pure p
  · simp only [Option.some.injEq, forall_eq'] at first second
    cases op with
    | bsf | bsr => simp [bits, scanBits, first, second]
    | bt | btc | btr | bts =>
        cases dst <;> cases src <;>
          simp_all [bits, testBitString, testOperandBit, changedBit?, setCarry]

theorem conditionalMove_noWidthFault (c : Condition) :
    NoWidthFault (conditionalMove (δ := δ) c operands) := by
  intro p
  obtain ⟨dst | dst, src | src⟩ := operands <;> simp_all [conditionalMove]

theorem port_noWidthFault [PortDevice δ] (op : PortOp) :
    NoWidthFault (port (δ := δ) op operands) := by
  intro p
  unfold port
  split
  · simp_all [inputTo, requestInput, suspend]
  · simp_all [outputFrom, requestOutput, suspend]
  · simp [inputString, requestInput, suspend]
  · simp [outputString, requestOutput, suspend]
  · exact NoWidthFault.pure p

omit second

theorem conditionalSet_noWidthFault (c : Condition) :
    NoWidthFault (conditionalSet (δ := δ) c operands) := by
  intro p
  obtain ⟨dst | dst, src⟩ := operands <;> simp_all [conditionalSet]

theorem loop_noWidthFault (op : LoopOp) : NoWidthFault (loop (δ := δ) op operands) := by
  intro p
  obtain ⟨target | target, src⟩ := operands <;> simp_all [loop]

theorem conditionalJump_noWidthFault (c : Condition) :
    NoWidthFault (conditionalJump (δ := δ) c operands) := by
  intro p
  obtain ⟨target | target, src⟩ := operands <;> simp_all [conditionalJump]

theorem control_noWidthFault (op : ControlOp) :
    NoWidthFault (control (δ := δ) op operands) := by
  intro p
  obtain ⟨a | a, b⟩ := operands <;> cases op <;>
    simp_all [control, call, push, ret, interrupt, enterHandler, interruptReturn]

theorem wide_noWidthFault (op : WideOp) : NoWidthFault (wide (δ := δ) op operands) := by
  intro p
  obtain ⟨src | src, b⟩ := operands
  · exact NoWidthFault.pure p
  · cases op <;>
      simp_all [wide, multiply, multiplySigned, divide, divideSigned, setProduct, setHalves,
        dividend]

end Operands

/-- The address that `lea` takes is not accessed. -/
theorem transfer_noWidthFault (op : TransferOp) (operands : Operands)
    (first : ∀ a, operands.1 = some a → a.Accessible)
    (second : op ≠ .lea → ∀ b, operands.2 = some b → b.Accessible) :
    NoWidthFault (transfer (δ := δ) op operands) := by
  intro p
  obtain ⟨dst | dst, src | src⟩ := operands
  · cases op <;> simp [transfer, translate]
  · cases op <;> simp [transfer, translate]
  · simp only [Option.some.injEq, forall_eq'] at first
    cases op <;> simp [transfer, translate, first]
  · simp only [Option.some.injEq, forall_eq'] at first second
    cases op with
    | lea => cases src <;> simp [transfer, first]
    | _ =>
        have source := second (by simp)
        simp [transfer, translate, exchange, exchangeAdd, compareExchange, first, source]

/-- What goes over the stack goes at the width of the operand, register or not. -/
theorem stack_noWidthFault (op : StackOp) (operands : Operands)
    (first : op = .push ∨ op = .pop → ∀ a, operands.1 = some a → Memory.isAccessSize a.size) :
    NoWidthFault (stack (δ := δ) op operands) := by
  intro p
  obtain ⟨a | a, b⟩ := operands
  · cases op <;> simp [stack, push, pop, popAll, pushAll, writeRegisters, stackBlock]
  · cases op with
    | push | pop =>
        have width := first (by simp) a rfl
        have accessible := Operand.accessible_of_size width
        simp [stack, push, popTo, width, accessible]
    | pushad | pushfd | popad | popfd =>
        simp [stack, push, pop, popAll, pushAll, writeRegisters, stackBlock]

/-- The blocks of saved states are accessed word by word. -/
theorem system_noWidthFault (op : SystemOp) (operands : Operands)
    (first : op ≠ .xsave → op ≠ .xrstor → ∀ a, operands.1 = some a → a.Accessible) :
    NoWidthFault (system (δ := δ) op operands) := by
  intro p
  obtain ⟨a | a, b⟩ := operands
  · cases op <;> simp [system, fillHigh]
  · cases op with
    | xsave => cases a <;> simp [system, saveState, writeRegisters, stateBlock]
    | xrstor => cases a <;> simp [system, restoreState]
    | _ =>
        have accessible := first (by simp) (by simp) a rfl
        simp [system, fillHigh, random, accessible]

theorem string_noWidthFault (op : StringOp) (w : Width) :
    NoWidthFault (string (δ := δ) op w) := by
  intro p
  cases op <;> simp [string]

theorem countRepetition_noWidthFault :
    NoWidthFault (discard (countRepetition (δ := δ))) := by
  intro p
  simp [countRepetition]

end Execution

namespace Instruction

/-- The memory operand of unknown width that validation has let pass and that is accessed. -/
def unsized? (i : Instruction) : Option MemoryOperand :=
  match i.op, i.op1 with
  | .shift _, some (.memory m) | .control .call, some (.memory m)
  | .control .jmp, some (.memory m) => if m.size = 0 then some m else none
  | _, _ => none

variable {i : Instruction}

theorem Validated.first_accessible (valid : i.Validated)
    (h : i.op.signature.fixesWidths ∨ .memory ∉ i.op.signature.first) :
    ∀ a, i.op1 = some a → a.Accessible := by
  intro a given
  rcases h with fixes | absent
  · have widths := (valid.haveWidths fixes).1
    rw [given] at widths
    exact Operand.accessible_of_size widths
  · apply Operand.accessible_of_kind
    intro kind
    exact absent (kind ▸ valid.kinds.1 a given)

theorem Validated.second_accessible (valid : i.Validated)
    (h : i.op.signature.fixesWidths ∨ .memory ∉ i.op.signature.second) :
    ∀ b, i.op2 = some b → b.Accessible := by
  intro b given
  rcases h with fixes | absent
  · have widths := (valid.haveWidths fixes).2
    rw [given] at widths
    exact Operand.accessible_of_size widths
  · apply Operand.accessible_of_kind
    intro kind
    exact absent (kind ▸ valid.kinds.2 b given)

/-- Where validation does not ask for a width, one that is known is supported all the same. -/
theorem Validated.accessible_of_known (valid : i.Validated)
    (silent : i.op.signature.rule = .shiftCount ∨ i.op.signature.rule = .structural)
    (known : ∀ m, i.op1 = some (.memory m) → m.size ≠ 0) :
    ∀ a, i.op1 = some a → a.Accessible := by
  intro a given inMemory
  have supported := valid.supportedSize_first silent given
  cases a with
  | memory m => exact Signature.isAccessSize_of_supportedSize supported (known m given)
  | register _ | immediate _ _ | label _ => cases inMemory

/-! One family of operators after the other -/

open Execution

theorem Validated.noWidthFault_arithmetic {op : ArithmeticOp} (valid : i.Validated)
    (family : i.op = .arithmetic op) : NoWidthFault (arithmetic (δ := δ) op (i.op1, i.op2)) := by
  apply arithmetic_noWidthFault
  · exact valid.first_accessible (by rw [family]; cases op <;> decide)
  · exact valid.second_accessible (by rw [family]; cases op <;> decide)

theorem Validated.noWidthFault_logic {op : LogicOp} (valid : i.Validated)
    (family : i.op = .logic op) : NoWidthFault (logic (δ := δ) op (i.op1, i.op2)) := by
  apply logic_noWidthFault
  · exact valid.first_accessible (by rw [family]; cases op <;> decide)
  · exact valid.second_accessible (by rw [family]; cases op <;> decide)

theorem Validated.noWidthFault_shift {op : ShiftOp} (valid : i.Validated)
    (family : i.op = .shift op) (sized : i.unsized? = none) :
    NoWidthFault (shift (δ := δ) op (i.op1, i.op2)) := by
  apply shift_noWidthFault
  · apply valid.accessible_of_known (by rw [family]; exact .inl rfl)
    intro m given unknown
    simp [unsized?, family, given, unknown] at sized
  · exact valid.second_accessible (by rw [family]; cases op <;> decide)

theorem Validated.noWidthFault_bits {op : BitOp} (valid : i.Validated)
    (family : i.op = .bits op) : NoWidthFault (bits (δ := δ) op (i.op1, i.op2)) := by
  apply bits_noWidthFault
  · exact valid.first_accessible (by rw [family]; cases op <;> decide)
  · exact valid.second_accessible (by rw [family]; cases op <;> decide)

theorem Validated.noWidthFault_transfer {op : TransferOp} (valid : i.Validated)
    (family : i.op = .transfer op) : NoWidthFault (transfer (δ := δ) op (i.op1, i.op2)) := by
  apply transfer_noWidthFault
  · exact valid.first_accessible (by rw [family]; cases op <;> decide)
  · intro other
    exact valid.second_accessible (by rw [family]; cases op <;> first | decide | contradiction)

theorem Validated.noWidthFault_stack {op : StackOp} (valid : i.Validated)
    (family : i.op = .stack op) : NoWidthFault (stack (δ := δ) op (i.op1, i.op2)) := by
  apply stack_noWidthFault
  intro accesses a given
  have fixes : i.op.signature.fixesWidths := by
    rw [family]
    rcases accesses with rfl | rfl <;> rfl
  have widths := (valid.haveWidths fixes).1
  rwa [given] at widths

theorem Validated.noWidthFault_control {op : ControlOp} (valid : i.Validated)
    (family : i.op = .control op) (sized : i.unsized? = none) :
    NoWidthFault (control (δ := δ) op (i.op1, i.op2)) := by
  apply control_noWidthFault
  cases op with
  | call | jmp =>
      apply valid.accessible_of_known (by rw [family]; exact .inr rfl)
      intro m given unknown
      simp [unsized?, family, given, unknown] at sized
  | ret | int | iret | hlt => exact valid.first_accessible (by rw [family]; decide)

theorem Validated.noWidthFault_port [PortDevice δ] {op : PortOp} (valid : i.Validated)
    (family : i.op = .port op) : NoWidthFault (port (δ := δ) op (i.op1, i.op2)) := by
  apply port_noWidthFault
  · apply valid.first_accessible
    rw [family]
    cases op with
    | input | output => decide
    | ins w | outs w => exact .inr nofun
  · apply valid.second_accessible
    rw [family]
    cases op with
    | input | output => decide
    | ins w | outs w => exact .inr nofun

theorem Validated.noWidthFault_system {op : SystemOp} (valid : i.Validated)
    (family : i.op = .system op) : NoWidthFault (system (δ := δ) op (i.op1, i.op2)) := by
  apply system_noWidthFault
  intro save restore
  exact valid.first_accessible (by rw [family]; cases op <;> first | decide | contradiction)

theorem execute_noWidthFault [PortDevice δ] (valid : i.Validated) (sized : i.unsized? = none) :
    NoWidthFault (i.execute (δ := δ)) := by
  have first := valid.first_accessible
  have second := valid.second_accessible
  rw [execute]
  cases family : i.op with
  | arithmetic op => exact valid.noWidthFault_arithmetic family
  | logic op => exact valid.noWidthFault_logic family
  | shift op => exact valid.noWidthFault_shift family sized
  | bits op => exact valid.noWidthFault_bits family
  | transfer op => exact valid.noWidthFault_transfer family
  | stack op => exact valid.noWidthFault_stack family
  | control op => exact valid.noWidthFault_control family sized
  | loop op => exact loop_noWidthFault (first (by rw [family]; cases op <;> decide)) op
  | jump c => exact conditionalJump_noWidthFault (first (by rw [family]; cases c <;> decide)) c
  | move c =>
      apply conditionalMove_noWidthFault
      · exact first (by rw [family]; cases c <;> decide)
      · exact second (by rw [family]; cases c <;> decide)
  | set c => exact conditionalSet_noWidthFault (first (by rw [family]; cases c <;> decide)) c
  | string op w => exact string_noWidthFault op w
  | port op => exact valid.noWidthFault_port family
  | wide op => exact wide_noWidthFault (first (by rw [family]; cases op <;> decide)) op
  | system op => exact valid.noWidthFault_system family
  | rep => exact countRepetition_noWidthFault

/-- Reading the operand is the first thing that a shift, a call or a jump does. -/
theorem execute_of_unsized [PortDevice δ] (valid : i.Validated) {m : MemoryOperand}
    (unsized : i.unsized? = some m) (p : Processor δ) :
    i.execute.run p =
      .error (if p.memory.inRange (p.addressOf m) 0 then .invalidReadSize 0
        else .invalidReadAddress (p.addressOf m)) p := by
  have second := valid.second_isSome
  obtain ⟨op, op1, op2, position⟩ := i
  simp only [unsized?] at unsized
  apply Outcome.run_eq_error
  split at unsized
  · rename_i op m'
    obtain ⟨rfl, unknown⟩ : m' = m ∧ m'.size = 0 := by grind
    obtain ⟨count, rfl⟩ := Option.isSome_iff_exists.mp (second rfl nofun)
    simp [execute, Operator.execute, Execution.shift, Processor.readFault?_of_unsized unknown p]
  · rename_i m'
    obtain ⟨rfl, unknown⟩ : m' = m ∧ m'.size = 0 := by grind
    simp [execute, Operator.execute, Execution.control, Execution.call,
      Processor.readFault?_of_unsized unknown p]
  · rename_i m'
    obtain ⟨rfl, unknown⟩ : m' = m ∧ m'.size = 0 := by grind
    simp [execute, Operator.execute, Execution.control, Processor.readFault?_of_unsized unknown p]
  · cases unsized

end Instruction

/-- When an instruction of an assembled program raises a width fault: it is a shift, a call or a
jump through a memory operand without a width, whose address is in data memory or just after it.
The fault is that of a read of width zero, and the processor is as before. -/
theorem width_fault_iff [PortDevice δ] {source : String} {table : VariableTable} {limit : Word}
    {program : Program} (assembled : Program.assemble source table limit = .ok program)
    {i : Instruction} (member : i ∈ program.instructions) {f : Fault} (width : f.IsWidth)
    (p q : Processor δ) :
    i.execute.run p = .error f q ↔
      f = .invalidReadSize 0 ∧ q = p ∧
        ∃ m, i.unsized? = some m ∧ p.memory.inRange (p.addressOf m) 0 := by
  have valid := Assembly.validated_of_assemble assembled i member
  cases unsized : i.unsized? with
  | none =>
      have none_raised := Instruction.execute_noWidthFault valid unsized p
      constructor
      · intro faulted
        exact absurd width (none_raised.of_error faulted)
      · rintro ⟨-, -, m, found, -⟩
        cases found
  | some m =>
      rw [Instruction.execute_of_unsized valid unsized]
      by_cases inRange : p.memory.inRange (p.addressOf m) 0
      · rw [if_pos inRange]
        constructor
        · rintro ⟨⟩
          exact ⟨rfl, rfl, m, rfl, inRange⟩
        · rintro ⟨rfl, rfl, -⟩
          rfl
      · rw [if_neg inRange]
        constructor
        · rintro ⟨⟩
          exact absurd width id
        · rintro ⟨-, -, m', found, inRange'⟩
          cases found
          exact absurd inRange' inRange

theorem width_fault_shl :
    let i : Instruction :=
      { op := .shift .shl, op1 := some (.memory { displacement := 1024 })
        op2 := some (.immediate 1 0) }
    let p : Processor Script := .new 16 {} default
    ∃ program, Program.assemble "shl [1024], 1" {} 1040 = .ok program ∧
      i ∈ program.instructions ∧ i.execute.run p = .error (.invalidReadSize 0) p := by
  intro i p
  have instructions :
      (Program.assemble "shl [1024], 1" {} 1040).toOption.map (·.instructions) = some #[i] := by
    decide +kernel
  cases assembled : Program.assemble "shl [1024], 1" {} 1040 with
  | error e =>
      rw [assembled] at instructions
      cases instructions
  | ok program =>
      rw [assembled] at instructions
      have only : program.instructions = #[i] := Option.some.inj instructions
      have member : i ∈ program.instructions := by simp [only]
      have width : (Fault.invalidReadSize 0).IsWidth := trivial
      refine ⟨program, rfl, member, ?_⟩
      exact (width_fault_iff assembled member width p p).mpr ⟨rfl, rfl, _, rfl, rfl⟩

end ReducedX86
