import ReducedX86.Device.Script
import ReducedX86.Proofs.Execution.Outcome
import ReducedX86.Proofs.Instruction.Validation

/-!
Instructions that fault have done nothing.

Most instructions fault before their first change of the processor. Those that set flags or write
one operand before another either write to a register then, or to a place that they have read
before. A string input that cannot be stored has taken its value from the device.
-/
namespace ReducedX86

variable {δ : Type}

namespace Execution

/-- A fault leaves the processor as it was. -/
def AllOrNothing (x : Execution δ Unit) : Prop :=
  ∀ p, Outcome x (fun _ _ => True) (fun _ q => q = p) p

theorem AllOrNothing.pure : AllOrNothing (pure () : Execution δ Unit) := by
  intro p
  trivial

theorem arithmetic_allOrNothing (op : ArithmeticOp) (operands : Operands) :
    AllOrNothing (arithmetic (δ := δ) op operands) := by
  intro p
  obtain ⟨dst | dst, src | src⟩ := operands <;>
    cases op <;> simp [arithmetic, unaryArithmetic, binaryArithmetic]

theorem logic_allOrNothing (op : LogicOp) (operands : Operands) :
    AllOrNothing (logic (δ := δ) op operands) := by
  intro p
  obtain ⟨dst | dst, src | src⟩ := operands <;> cases op <;> simp [logic]

theorem shift_allOrNothing (op : ShiftOp) (operands : Operands) :
    AllOrNothing (shift (δ := δ) op operands) := by
  intro p
  obtain ⟨dst | dst, count | count⟩ := operands <;> simp [shift]

/-- The byte whose bit was tested has been read, so it can be written. -/
theorem testBitString_allOrNothing (op : BitOp) (m : MemoryOperand) (k : Int) :
    AllOrNothing (testBitString (δ := δ) op m k) := by
  intro p
  simp only [testBitString, setCarry, outcome_bind, outcome_get, outcome_readMemory,
    outcome_setFlags]
  refine ⟨fun _ _ => trivial, ?_⟩
  intro readable
  have writable := Memory.writeFault?_eq_none_iff.mpr readable
  split <;> simp [writable]

theorem testOperandBit_allOrNothing (op : BitOp) (dst : Operand) (i : Nat) :
    AllOrNothing (testOperandBit (δ := δ) op dst i) := by
  intro p
  simp only [testOperandBit, setCarry, outcome_bind, outcome_read, outcome_setFlags]
  refine ⟨fun _ _ => trivial, ?_⟩
  intro readable
  have writable := Processor.writeFault?_of_readFault? readable
  split <;> simp [writable]

theorem scanBits_allOrNothing (op : BitOp) (r : Register) (src : Operand) :
    AllOrNothing (scanBits (δ := δ) op (.register r) src) := by
  intro p
  simp [scanBits]

theorem bits_allOrNothing (op : BitOp) (operands : Operands)
    (target : op = .bsf ∨ op = .bsr → ∀ a, operands.1 = some a → a.kind = .register) :
    AllOrNothing (bits (δ := δ) op operands) := by
  obtain ⟨dst | dst, src | src⟩ := operands
  · exact AllOrNothing.pure
  · exact AllOrNothing.pure
  · exact AllOrNothing.pure
  · cases op with
    | bsf | bsr =>
        obtain ⟨r, rfl⟩ := Operand.eq_register_of_kind (target (by simp) dst rfl)
        exact scanBits_allOrNothing _ r src
    | bt | btc | btr | bts =>
        intro p
        simp only [bits, outcome_bind, outcome_read]
        refine ⟨fun _ _ => trivial, ?_⟩
        intro _
        split
        · exact testBitString_allOrNothing _ _ _ p
        · exact testOperandBit_allOrNothing _ _ _ p

/-- The second store of an exchanging addition goes to a register. -/
theorem exchangeAdd_allOrNothing (dst : Operand) (r : Register) :
    AllOrNothing (exchangeAdd (δ := δ) dst (.register r)) := by
  intro p
  simp [exchangeAdd]

/-- The destination has been read, so it can be written. -/
theorem compareExchange_allOrNothing (dst : Operand) (r : Register) :
    AllOrNothing (compareExchange (δ := δ) dst (.register r)) := by
  intro p
  simp only [compareExchange, outcome_bind, outcome_read, outcome_reg]
  refine ⟨fun _ _ => trivial, ?_⟩
  intro readable
  have writable := Processor.writeFault?_of_readFault? readable
  simp [writable]

theorem transfer_allOrNothing (op : TransferOp) (operands : Operands) (other : op ≠ .xchg)
    (source : op = .xadd ∨ op = .cmpxchg → ∀ b, operands.2 = some b → b.kind = .register) :
    AllOrNothing (transfer (δ := δ) op operands) := by
  obtain ⟨dst | dst, src | src⟩ := operands
  · intro p
    cases op <;> simp [transfer, translate]
  · intro p
    cases op <;> simp [transfer, translate]
  · intro p
    cases op <;> simp [transfer, translate]
  · cases op with
    | xchg => exact absurd rfl other
    | xadd =>
        obtain ⟨r, rfl⟩ := Operand.eq_register_of_kind (source (by simp) src rfl)
        exact exchangeAdd_allOrNothing dst r
    | cmpxchg =>
        obtain ⟨r, rfl⟩ := Operand.eq_register_of_kind (source (by simp) src rfl)
        exact compareExchange_allOrNothing dst r
    | lea =>
        intro p
        cases src <;> simp [transfer]
    | mov | movzx | movsx | xlatb | bswap =>
        intro p
        simp [transfer, translate]

theorem conditionalMove_allOrNothing (c : Condition) (operands : Operands) :
    AllOrNothing (conditionalMove (δ := δ) c operands) := by
  intro p
  obtain ⟨dst | dst, src | src⟩ := operands <;> simp [conditionalMove]

theorem conditionalSet_allOrNothing (c : Condition) (operands : Operands) :
    AllOrNothing (conditionalSet (δ := δ) c operands) := by
  intro p
  obtain ⟨dst | dst, src⟩ := operands <;> simp [conditionalSet]

theorem stack_allOrNothing (op : StackOp) (operands : Operands) (other : op ≠ .pushad) :
    AllOrNothing (stack (δ := δ) op operands) := by
  intro p
  obtain ⟨a | a, b⟩ := operands <;>
    cases op <;> simp_all [stack, push, pop, popTo, popAll]

theorem control_allOrNothing (op : ControlOp) (operands : Operands) (other : op ≠ .int) :
    AllOrNothing (control (δ := δ) op operands) := by
  intro p
  obtain ⟨a | a, b⟩ := operands <;>
    cases op <;> simp_all [control, call, push, ret, interruptReturn]

/-- A counted loop has counted when it reads its target, but a label can be read. -/
theorem loop_allOrNothing (op : LoopOp) (operands : Operands)
    (target : ∀ a, operands.1 = some a → a.kind = .label) :
    AllOrNothing (loop (δ := δ) op operands) := by
  obtain ⟨a | a, b⟩ := operands
  · exact AllOrNothing.pure
  · obtain ⟨address, rfl⟩ := Operand.eq_label_of_kind (target a rfl)
    intro p
    simp [loop]

theorem conditionalJump_allOrNothing (c : Condition) (operands : Operands) :
    AllOrNothing (conditionalJump (δ := δ) c operands) := by
  intro p
  obtain ⟨a | a, b⟩ := operands <;> simp [conditionalJump]

theorem countRepetition_allOrNothing :
    AllOrNothing (discard (countRepetition (δ := δ))) := by
  intro p
  simp [countRepetition]

theorem string_allOrNothing (op : StringOp) (w : Width) :
    AllOrNothing (string (δ := δ) op w) := by
  intro p
  cases op <;> simp [string]

theorem wide_allOrNothing (op : WideOp) (operands : Operands) :
    AllOrNothing (wide (δ := δ) op operands) := by
  intro p
  obtain ⟨src | src, b⟩ := operands
  · exact AllOrNothing.pure p
  · cases op <;>
      simp [wide, multiply, multiplySigned, divide, divideSigned, setProduct, setHalves, dividend]

theorem system_allOrNothing (op : SystemOp) (operands : Operands) (other : op ≠ .xsave)
    (target : op = .rdrand → ∀ a, operands.1 = some a → a.kind = .register) :
    AllOrNothing (system (δ := δ) op operands) := by
  intro p
  obtain ⟨a | a, b⟩ := operands
  · cases op <;> simp [system, fillHigh]
  · cases op with
    | xsave => exact absurd rfl other
    | xrstor => cases a <;> simp [system, restoreState]
    | rdrand =>
        obtain ⟨r, rfl⟩ := Operand.eq_register_of_kind (target rfl a rfl)
        simp [system, random]
    | _ => simp [system, fillHigh]

variable [PortDevice δ]

theorem port_allOrNothing (op : PortOp) (operands : Operands) (other : ∀ w, op ≠ .ins w) :
    AllOrNothing (port (δ := δ) op operands) := by
  intro p
  unfold port
  split
  · simp [inputTo, requestInput, suspend]
  · simp [outputFrom, requestOutput, suspend]
  · exact absurd rfl (other _)
  · simp [outputString, requestOutput, suspend]
  · exact AllOrNothing.pure p

/-- A string input takes its value from the device before it is stored. -/
theorem inputString_fault (size : Nat) (p : Processor δ) :
    Outcome (inputString size) (fun _ _ => True)
      (fun _ q => q = { p with buffer := q.buffer, device := q.device }) p := by
  simp [inputString, requestInput, suspend]

end Execution

namespace Instruction

/-- The operators that may change the processor before they fault. -/
def partialOperators : List Operator :=
  [.control .int, .stack .pushad, .system .xsave, .transfer .xchg]

variable [PortDevice δ] {i : Instruction}

theorem execute_allOrNothing (valid : i.Validated) (other : i.op ∉ partialOperators)
    (quiet : ∀ w, i.op ≠ .port (.ins w)) :
    Execution.AllOrNothing (i.execute (δ := δ)) := by
  obtain ⟨op, op1, op2, position⟩ := i
  obtain ⟨first, second⟩ := valid.kinds
  simp only [partialOperators, List.mem_cons, not_or] at other
  cases op with
  | arithmetic op => exact Execution.arithmetic_allOrNothing op _
  | logic op => exact Execution.logic_allOrNothing op _
  | shift op => exact Execution.shift_allOrNothing op _
  | bits op =>
      apply Execution.bits_allOrNothing op
      rintro (rfl | rfl) a given
      · simpa [Operator.signature, Signature.binary] using first a given
      · simpa [Operator.signature, Signature.binary] using first a given
  | transfer op =>
      apply Execution.transfer_allOrNothing op
      · simpa using other.2.2.2
      · rintro (rfl | rfl) b given
        · simpa [Operator.signature, Signature.binary] using second b given
        · simpa [Operator.signature, Signature.binary] using second b given
  | stack op =>
      apply Execution.stack_allOrNothing op
      simpa using other.2.1
  | control op =>
      apply Execution.control_allOrNothing op
      simpa using other.1
  | loop op =>
      apply Execution.loop_allOrNothing op
      intro a given
      simpa [Operator.signature, Signature.unary] using first a given
  | jump c => exact Execution.conditionalJump_allOrNothing c _
  | move c => exact Execution.conditionalMove_allOrNothing c _
  | set c => exact Execution.conditionalSet_allOrNothing c _
  | string op w => exact Execution.string_allOrNothing op w
  | port op =>
      apply Execution.port_allOrNothing op
      intro w same
      exact quiet w (congrArg Operator.port same)
  | wide op => exact Execution.wide_allOrNothing op _
  | system op =>
      apply Execution.system_allOrNothing op
      · simpa using other.2.2.1
      · rintro rfl a given
        simpa [Operator.signature, Signature.unary] using first a given
  | rep => exact Execution.countRepetition_allOrNothing

/-- When a validated instruction faults, the processor is as before, but for what a string input
has already taken from the device. -/
theorem fault_keeps_processor (valid : i.Validated) (other : i.op ∉ partialOperators)
    {p q : Processor δ} {f : Fault} (faulted : i.execute.run p = .error f q) :
    q = { p with buffer := q.buffer, device := q.device } ∧
      ((∀ w, i.op ≠ .port (.ins w)) → q = p) := by
  by_cases quiet : ∀ w, i.op ≠ .port (.ins w)
  · have same : q = p := (execute_allOrNothing valid other quiet p).of_error faulted
    subst same
    exact ⟨rfl, fun _ => rfl⟩
  · refine ⟨?_, fun all => absurd all quiet⟩
    obtain ⟨w, isInput⟩ : ∃ w, i.op = .port (.ins w) := by
      simpa using quiet
    obtain ⟨op, op1, op2, position⟩ := i
    cases isInput
    exact (Execution.inputString_fault w.bytes p).of_error faulted

theorem fault_keeps_processor_xadd :
    let i : Instruction :=
      { op := .transfer .xadd, op1 := some (.memory { size := 4 }), op2 := some (.register .eax) }
    let p : Processor Script := .new 16 {} default
    ∃ q, i.execute.run p = .error (.invalidReadAddress 0) q ∧ q = p := by
  intro i p
  have valid : i.Validated := ⟨(i.op1, i.op2), rfl⟩
  have other : i.op ∉ partialOperators := by decide
  have faulted : i.execute.run p = .error (.invalidReadAddress 0) p := rfl
  refine ⟨p, faulted, ?_⟩
  exact (fault_keeps_processor valid other faulted).2 (by intro w; nofun)

end Instruction

end ReducedX86
