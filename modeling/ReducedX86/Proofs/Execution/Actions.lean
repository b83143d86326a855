import ReducedX86.Execution.Instruction
import ReducedX86.Proofs.Instruction.Validation

/-!
What the operators do with the operands they are made for.

An executor does nothing where an operand is missing or of a kind that it has no use for, and a value
that is written to a constant is lost. `Operator.action?` gives the same actions with all that left
out: it answers only where the operands are exactly those that are needed, and where everything that is
written goes to a register or to memory. Operands that have passed their check are always such.
-/
namespace ReducedX86

/-- The operand can be written. -/
def Operand.isPlace : Operand → Bool
  | register _ | memory _ => true
  | immediate _ _ | label _ => false

theorem Operand.isPlace_of_kind {o : Operand} (admitted : o.kind ∈ [OperandKind.register, .memory]) :
    o.isPlace := by
  cases o with
  | register _ | memory _ => rfl
  | immediate _ _ | label _ => simp [kind] at admitted

theorem Operand.eq_memory_of_kind {o : Operand} (h : o.kind = .memory) : ∃ m, o = memory m := by
  cases o with
  | memory m => exact ⟨m, rfl⟩
  | register _ | immediate _ _ | label _ => cases h

theorem Operand.isPlace_of_register {o : Operand} (kind : o.kind ∈ [OperandKind.register]) :
    o.isPlace :=
  isPlace_of_kind (List.mem_cons.mpr (.inl (List.mem_singleton.mp kind)))

namespace Execution

variable {δ : Type}

/-- The action of an operator on operands, if it has one. -/
abbrev Action (δ : Type) := Operands → Option (Execution δ Unit)

/-- The action takes no operand. -/
def alone (x : Execution δ Unit) : Action δ
  | (none, none) => some x
  | _ => none

def withOne (f : Operand → Option (Execution δ Unit)) : Action δ
  | (some a, none) => f a
  | _ => none

def withTwo (f : Operand → Operand → Option (Execution δ Unit)) : Action δ
  | (some a, some b) => f a b
  | _ => none

/-- The action writes the operand. -/
def atPlace (dst : Operand) (x : Execution δ Unit) : Option (Execution δ Unit) :=
  if dst.isPlace then some x else none

def atRegister (f : Register → Execution δ Unit) : Operand → Option (Execution δ Unit)
  | .register r => some (f r)
  | _ => none

def atMemory (f : MemoryOperand → Execution δ Unit) : Operand → Option (Execution δ Unit)
  | .memory m => some (f m)
  | _ => none

def arithmetic? (op : ArithmeticOp) : Action δ :=
  match op with
  | .inc | .dec | .neg => withOne fun dst => atPlace dst do
      let a ← read dst
      unaryArithmetic op dst a
  | .add | .adc | .sub | .sbb => withTwo fun dst src => atPlace dst do
      let a ← read dst
      binaryArithmetic op dst a (← read src)
  | .cmp => withTwo fun dst src => some do
      let a ← read dst
      binaryArithmetic .cmp dst a (← read src)

def logic? (op : LogicOp) : Action δ :=
  match op with
  | .not => withOne fun dst => atPlace dst do
      let a ← read dst
      discard <| write dst (bitwise .not a a)
  | .and | .or | .xor => withTwo fun dst src => atPlace dst do
      let a ← read dst
      let result := bitwise op a (← read src)
      discard <| write dst result
      setFlags (·.afterLogic result dst.size)
  | .test => withTwo fun dst src => some do
      let a ← read dst
      let result := bitwise .test a (← read src)
      setFlags (·.afterLogic result dst.size)

def shift? (op : ShiftOp) : Action δ :=
  withTwo fun dst count => atPlace dst do
    let a ← read dst
    let n := (← read count).toNat % 32
    if n ≠ 0 then
      let (result, carry) := shifted op a n dst.size (← get).flags.carry
      let r ← write dst result
      setFlags (shiftFlags op a r n dst.size carry)

def bits? (op : BitOp) : Action δ :=
  withTwo fun dst src => atPlace dst <|
    match op with
    | .bsf | .bsr => scanBits op dst src
    | .bt | .btc | .btr | .bts => do
        let index ← read src
        match dst, src with
        | .memory m, .register r => testBitString op m (index.signed r.size)
        | _, _ => testOperandBit op dst (index.toNat % (if dst.size = 4 then 32 else 16))

def transfer? (op : TransferOp) : Action δ :=
  match op with
  | .xlatb => alone translate
  | .bswap => withOne fun dst => atPlace dst do discard <| write dst (← read dst).swapBytes
  | .mov | .movzx => withTwo fun dst src => atPlace dst do discard <| write dst (← read src)
  | .movsx => withTwo fun dst src => atPlace dst do
      discard <| write dst ((← read src).signExtend src.size)
  | .xchg => withTwo fun dst src => (atPlace dst (exchange dst src)).bind (atPlace src)
  | .lea => withTwo fun dst src =>
      (atMemory (fun m => do discard <| write dst ((← get).addressOf m)) src).bind (atPlace dst)
  | .xadd => withTwo fun dst src => (atPlace dst (exchangeAdd dst src)).bind (atPlace src)
  | .cmpxchg => withTwo fun dst src => atPlace dst (compareExchange dst src)

def stack? (op : StackOp) : Action δ :=
  match op with
  | .push => withOne fun src => some do push (← read src) src.size
  | .pop => withOne fun dst => atPlace dst (popTo dst)
  | .pushfd => alone do push (← get).flags.pack 4
  | .popfd => alone do
      let packed ← pop 4
      setFlags fun _ => Flags.unpack packed
  | .pushad => alone pushAll
  | .popad => alone popAll

def control? (op : ControlOp) : Action δ :=
  match op with
  | .call => withOne fun target => some (call target)
  | .jmp => withOne fun target => some do jump (← read target)
  | .ret => fun
      | (count, none) => some (ret count)
      | (_, some _) => none
  | .int => withOne fun number => some do interrupt (← read number)
  | .iret => alone interruptReturn
  | .hlt => alone (modify fun p => { p with halted := true })

def loop? (op : LoopOp) : Action δ :=
  withOne fun target => some do
    let count ← setReg .ecx ((← reg .ecx) - 1)
    if count ≠ 0 ∧ loopContinues op (← get).flags.zero then jump (← read target)

def conditionalJump? (c : Condition) : Action δ :=
  withOne fun target => some do if c.holds (← get).flags then jump (← read target)

def conditionalMove? (c : Condition) : Action δ :=
  withTwo fun dst src => atPlace dst do
    let value ← read src
    if c.holds (← get).flags then discard <| write dst value

def conditionalSet? (c : Condition) : Action δ :=
  withOne fun dst => atPlace dst do
    discard <| write dst (if c.holds (← get).flags then 1 else 0)

def wide? (op : WideOp) : Action δ :=
  withOne fun src => some do
    let a ← read src
    match op with
    | .mul => multiply src.size a
    | .imul => multiplySigned src.size a
    | .div => divide src.size a
    | .idiv => divideSigned src.size a

def system? (op : SystemOp) : Action δ :=
  match op with
  | .nop => alone (pure ())
  | .clc => alone (setFlags fun f => { f with carry := false })
  | .stc => alone (setFlags fun f => { f with carry := true })
  | .cmc => alone (setFlags fun f => { f with carry := !f.carry })
  | .cld => alone (setFlags fun f => { f with direction := false })
  | .std => alone (setFlags fun f => { f with direction := true })
  | .cli => alone (setFlags fun f => { f with interrupt := false })
  | .sti => alone (setFlags fun f => { f with interrupt := true })
  | .cwd => alone (fillHigh .ax .dx)
  | .cdq => alone (fillHigh .eax .edx)
  | .lidt => withOne fun src => some do
      let table ← read src
      modify fun p => { p with handlerTable := table }
  | .sidt => withOne fun dst => atPlace dst do discard <| write dst (← get).handlerTable
  | .rdrand => withOne fun dst => atPlace dst (random dst)
  | .xsave => withOne (atMemory saveState)
  | .xrstor => withOne (atMemory restoreState)

def port? [PortDevice δ] (op : PortOp) : Action δ :=
  match op with
  | .input => withTwo fun target port => atRegister (fun r => inputTo r port) target
  | .output => withTwo fun port src => some (outputFrom port src)
  | .ins w => alone (inputString w.bytes)
  | .outs w => alone (outputString w.bytes)

end Execution

/-- What the operator does with operands that are all it needs, no more and no less. -/
def Operator.action? {δ : Type} [PortDevice δ] (op : Operator) : Execution.Action δ :=
  match op with
  | arithmetic op => Execution.arithmetic? op
  | logic op => Execution.logic? op
  | shift op => Execution.shift? op
  | bits op => Execution.bits? op
  | transfer op => Execution.transfer? op
  | stack op => Execution.stack? op
  | control op => Execution.control? op
  | loop op => Execution.loop? op
  | jump c => Execution.conditionalJump? c
  | move c => Execution.conditionalMove? c
  | set c => Execution.conditionalSet? c
  | string op w => Execution.alone (Execution.string op w)
  | port op => Execution.port? op
  | wide op => Execution.wide? op
  | system op => Execution.system? op
  | rep => Execution.alone (discard Execution.countRepetition)

namespace Execution

variable {δ : Type} {os : Operands} {x : Execution δ Unit}

theorem alone_eq_some {y : Execution δ Unit} : alone y os = some x ↔ os = (none, none) ∧ y = x := by
  obtain ⟨a | a, b | b⟩ := os <;> simp [alone]

theorem withOne_eq_some {f : Operand → Option (Execution δ Unit)} :
    withOne f os = some x ↔ ∃ a, os = (some a, none) ∧ f a = some x := by
  obtain ⟨a | a, b | b⟩ := os <;> simp [withOne]

theorem withTwo_eq_some {f : Operand → Operand → Option (Execution δ Unit)} :
    withTwo f os = some x ↔ ∃ a b, os = (some a, some b) ∧ f a b = some x := by
  obtain ⟨a | a, b | b⟩ := os <;> simp [withTwo, and_assoc]

theorem atPlace_eq_some {dst : Operand} {y : Execution δ Unit} :
    atPlace dst y = some x ↔ dst.isPlace ∧ y = x := by
  simp [atPlace]

theorem atMemory_eq_some {f : MemoryOperand → Execution δ Unit} {o : Operand} :
    atMemory f o = some x ↔ ∃ m, o = .memory m ∧ f m = x := by
  cases o <;> simp [atMemory]

theorem atRegister_eq_some {f : Register → Execution δ Unit} {o : Operand} :
    atRegister f o = some x ↔ ∃ r, o = .register r ∧ f r = x := by
  cases o <;> simp [atRegister]

theorem arithmetic_of_action {op : ArithmeticOp} (acts : arithmetic? op os = some x) :
    arithmetic op os = x := by
  cases op with
  | inc | dec | neg =>
      obtain ⟨a, rfl, acts⟩ := withOne_eq_some.mp acts
      exact (atPlace_eq_some.mp acts).2
  | add | adc | sub | sbb =>
      obtain ⟨a, b, rfl, acts⟩ := withTwo_eq_some.mp acts
      exact (atPlace_eq_some.mp acts).2
  | cmp =>
      obtain ⟨a, b, rfl, acts⟩ := withTwo_eq_some.mp acts
      exact Option.some.inj acts

theorem logic_of_action {op : LogicOp} (acts : logic? op os = some x) : logic op os = x := by
  cases op with
  | not =>
      obtain ⟨a, rfl, acts⟩ := withOne_eq_some.mp acts
      exact (atPlace_eq_some.mp acts).2
  | and | or | xor =>
      obtain ⟨a, b, rfl, acts⟩ := withTwo_eq_some.mp acts
      exact (atPlace_eq_some.mp acts).2
  | test =>
      obtain ⟨a, b, rfl, acts⟩ := withTwo_eq_some.mp acts
      exact Option.some.inj acts

theorem shift_of_action {op : ShiftOp} (acts : shift? op os = some x) : shift op os = x := by
  obtain ⟨a, b, rfl, acts⟩ := withTwo_eq_some.mp acts
  exact (atPlace_eq_some.mp acts).2

theorem bits_of_action {op : BitOp} (acts : bits? op os = some x) : bits op os = x := by
  obtain ⟨a, b, rfl, acts⟩ := withTwo_eq_some.mp acts
  have acts := (atPlace_eq_some.mp acts).2
  cases op <;> exact acts

theorem transfer_of_action {op : TransferOp} (acts : transfer? op os = some x) :
    transfer op os = x := by
  cases op with
  | xlatb =>
      obtain ⟨rfl, same⟩ := alone_eq_some.mp acts
      exact same
  | bswap =>
      obtain ⟨a, rfl, acts⟩ := withOne_eq_some.mp acts
      exact (atPlace_eq_some.mp acts).2
  | mov | movzx | movsx | cmpxchg =>
      obtain ⟨a, b, rfl, acts⟩ := withTwo_eq_some.mp acts
      exact (atPlace_eq_some.mp acts).2
  | xchg | xadd =>
      obtain ⟨a, b, rfl, acts⟩ := withTwo_eq_some.mp acts
      obtain ⟨y, first, second⟩ := Option.bind_eq_some_iff.mp acts
      exact (atPlace_eq_some.mp first).2.trans (atPlace_eq_some.mp second).2
  | lea =>
      obtain ⟨a, b, rfl, acts⟩ := withTwo_eq_some.mp acts
      obtain ⟨y, loads, written⟩ := Option.bind_eq_some_iff.mp acts
      obtain ⟨m, rfl, same⟩ := atMemory_eq_some.mp loads
      exact same.trans (atPlace_eq_some.mp written).2

theorem stack_of_action {op : StackOp} (acts : stack? op os = some x) : stack op os = x := by
  cases op with
  | pushad | pushfd | popad | popfd =>
      obtain ⟨rfl, same⟩ := alone_eq_some.mp acts
      exact same
  | push =>
      obtain ⟨a, rfl, acts⟩ := withOne_eq_some.mp acts
      exact Option.some.inj acts
  | pop =>
      obtain ⟨a, rfl, acts⟩ := withOne_eq_some.mp acts
      exact (atPlace_eq_some.mp acts).2

theorem control_of_action {op : ControlOp} (acts : control? op os = some x) :
    control op os = x := by
  cases op with
  | iret | hlt =>
      obtain ⟨rfl, same⟩ := alone_eq_some.mp acts
      exact same
  | call | jmp | int =>
      obtain ⟨a, rfl, acts⟩ := withOne_eq_some.mp acts
      exact Option.some.inj acts
  | ret =>
      obtain ⟨count, b | b⟩ := os
      · exact Option.some.inj acts
      · cases acts

theorem loop_of_action {op : LoopOp} (acts : loop? op os = some x) : loop op os = x := by
  obtain ⟨a, rfl, acts⟩ := withOne_eq_some.mp acts
  exact Option.some.inj acts

theorem conditionalJump_of_action {c : Condition} (acts : conditionalJump? c os = some x) :
    conditionalJump c os = x := by
  obtain ⟨a, rfl, acts⟩ := withOne_eq_some.mp acts
  exact Option.some.inj acts

theorem conditionalMove_of_action {c : Condition} (acts : conditionalMove? c os = some x) :
    conditionalMove c os = x := by
  obtain ⟨a, b, rfl, acts⟩ := withTwo_eq_some.mp acts
  exact (atPlace_eq_some.mp acts).2

theorem conditionalSet_of_action {c : Condition} (acts : conditionalSet? c os = some x) :
    conditionalSet c os = x := by
  obtain ⟨a, rfl, acts⟩ := withOne_eq_some.mp acts
  exact (atPlace_eq_some.mp acts).2

theorem wide_of_action {op : WideOp} (acts : wide? op os = some x) : wide op os = x := by
  obtain ⟨a, rfl, acts⟩ := withOne_eq_some.mp acts
  exact Option.some.inj acts

theorem system_of_action {op : SystemOp} (acts : system? op os = some x) : system op os = x := by
  cases op with
  | nop | clc | stc | cmc | cld | std | cli | sti | cwd | cdq =>
      obtain ⟨rfl, same⟩ := alone_eq_some.mp acts
      exact same
  | lidt =>
      obtain ⟨a, rfl, acts⟩ := withOne_eq_some.mp acts
      exact Option.some.inj acts
  | sidt | rdrand =>
      obtain ⟨a, rfl, acts⟩ := withOne_eq_some.mp acts
      exact (atPlace_eq_some.mp acts).2
  | xsave | xrstor =>
      obtain ⟨a, rfl, acts⟩ := withOne_eq_some.mp acts
      obtain ⟨m, rfl, same⟩ := atMemory_eq_some.mp acts
      exact same

theorem port_of_action [PortDevice δ] {op : PortOp} (acts : port? op os = some x) :
    port op os = x := by
  cases op with
  | input =>
      obtain ⟨a, b, rfl, acts⟩ := withTwo_eq_some.mp acts
      obtain ⟨r, rfl, same⟩ := atRegister_eq_some.mp acts
      exact same
  | output =>
      obtain ⟨a, b, rfl, acts⟩ := withTwo_eq_some.mp acts
      exact Option.some.inj acts
  | ins w | outs w =>
      obtain ⟨rfl, same⟩ := alone_eq_some.mp acts
      exact same

end Execution

namespace Operator

variable {δ : Type} [PortDevice δ] {op : Operator} {os given : Operands} {x : Execution δ Unit}

/-- Where an operator has an action, this is what its executor does. -/
theorem execute_of_action (acts : op.action? os = some x) : op.execute os = x := by
  cases op with
  | arithmetic op => exact Execution.arithmetic_of_action acts
  | logic op => exact Execution.logic_of_action acts
  | shift op => exact Execution.shift_of_action acts
  | bits op => exact Execution.bits_of_action acts
  | transfer op => exact Execution.transfer_of_action acts
  | stack op => exact Execution.stack_of_action acts
  | control op => exact Execution.control_of_action acts
  | loop op => exact Execution.loop_of_action acts
  | jump c => exact Execution.conditionalJump_of_action acts
  | move c => exact Execution.conditionalMove_of_action acts
  | set c => exact Execution.conditionalSet_of_action acts
  | string op w => exact (Execution.alone_eq_some.mp acts).2
  | port op => exact Execution.port_of_action acts
  | wide op => exact Execution.wide_of_action acts
  | system op => exact Execution.system_of_action acts
  | rep => exact (Execution.alone_eq_some.mp acts).2

end Operator

/-! Operands that have passed their check -/

namespace Signature

variable {s : Signature} {given os : Operands}

theorem none_of_validate (checked : s.validate given = .ok os) (zero : s.operandCount = 0) :
    os = (none, none) := by
  cases passes_of_validate checked with
  | none => rfl
  | one count => exact absurd (count.symm.trans zero) Nat.one_ne_zero
  | two count => exact absurd (count.symm.trans zero) (Nat.succ_ne_zero 1)

theorem one_of_validate (checked : s.validate given = .ok os) (one : s.operandCount = 1) :
    (s.rule = .release ∧ os = (none, none)) ∨ ∃ a, os = (some a, none) ∧ a.kind ∈ s.first := by
  cases passes_of_validate checked with
  | none count =>
      by_cases release : s.rule = .release
      · exact .inl ⟨release, rfl⟩
      · exact absurd ((count release).symm.trans one) Nat.zero_ne_one
  | one count ruled kind => exact .inr ⟨_, rfl, by rwa [Operand.kind_withSize]⟩
  | two count => exact absurd (count.symm.trans one) (by decide)

theorem two_of_validate (checked : s.validate given = .ok os) (two : s.operandCount = 2)
    (other : s.rule ≠ .release) :
    ∃ a b, os = (some a, some b) ∧ a.kind ∈ s.first ∧ b.kind ∈ s.second := by
  cases passes_of_validate checked with
  | none count => exact absurd ((count other).symm.trans two) (by decide)
  | one count => exact absurd (count.symm.trans two) (by decide)
  | two count ruled first second =>
      exact ⟨_, _, rfl, by rwa [Operand.kind_withSize], by rwa [Operand.kind_withSize]⟩

end Signature

namespace Instruction.Validated

variable {i : Instruction} {first second : List OperandKind} {rule : OperandRule}

theorem exists_one (valid : i.Validated) (unary : i.op.signature = .unary first rule)
    (other : rule ≠ .release) : ∃ a, i.op1 = some a ∧ i.op2 = none ∧ a.kind ∈ first := by
  obtain ⟨given, checked⟩ := valid
  rw [unary] at checked
  rcases Signature.one_of_validate checked rfl with ⟨release, -⟩ | ⟨a, operands, kind⟩
  · exact absurd release other
  · exact ⟨a, congrArg Prod.fst operands, congrArg Prod.snd operands, kind⟩

theorem exists_two (valid : i.Validated) (binary : i.op.signature = .binary first second rule)
    (other : rule ≠ .release) :
    ∃ a b, i.op1 = some a ∧ i.op2 = some b ∧ a.kind ∈ first ∧ b.kind ∈ second := by
  obtain ⟨given, checked⟩ := valid
  rw [binary] at checked
  obtain ⟨a, b, operands, kinds⟩ := Signature.two_of_validate checked rfl other
  exact ⟨a, b, congrArg Prod.fst operands, congrArg Prod.snd operands, kinds⟩

end Instruction.Validated

namespace Execution

variable {δ : Type} {s : Signature} {given os : Operands}

theorem exists_atPlace {dst : Operand} (place : dst.isPlace) (x : Execution δ Unit) :
    ∃ y, atPlace dst x = some y :=
  ⟨x, if_pos place⟩

theorem exists_alone (checked : s.validate given = .ok os) (zero : s.operandCount = 0)
    (x : Execution δ Unit) : ∃ y, alone x os = some y := by
  rw [Signature.none_of_validate checked zero]
  exact ⟨x, rfl⟩

theorem exists_withOne {f : Operand → Option (Execution δ Unit)}
    (checked : s.validate given = .ok os) (one : s.operandCount = 1) (rule : s.rule ≠ .release)
    (acts : ∀ a, a.kind ∈ s.first → ∃ y, f a = some y) : ∃ y, withOne f os = some y := by
  rcases Signature.one_of_validate checked one with ⟨release, -⟩ | ⟨a, rfl, kind⟩
  · exact absurd release rule
  · exact acts a kind

theorem exists_withTwo {f : Operand → Operand → Option (Execution δ Unit)}
    (checked : s.validate given = .ok os) (two : s.operandCount = 2) (rule : s.rule ≠ .release)
    (acts : ∀ a b, a.kind ∈ s.first → b.kind ∈ s.second → ∃ y, f a b = some y) :
    ∃ y, withTwo f os = some y := by
  obtain ⟨a, b, rfl, first, second⟩ := Signature.two_of_validate checked two rule
  exact acts a b first second

/-! One family of operators after the other -/

open Operand

theorem exists_arithmetic {op : ArithmeticOp}
    (checked : (Operator.arithmetic op).signature.validate given = .ok os) :
    ∃ x : Execution δ Unit, arithmetic? op os = some x := by
  cases op with
  | inc | dec | neg =>
      exact exists_withOne checked rfl (by rintro ⟨⟩) fun a kind =>
        exists_atPlace (isPlace_of_kind kind) _
  | add | adc | sub | sbb =>
      exact exists_withTwo checked rfl (by rintro ⟨⟩) fun a b kind _ =>
        exists_atPlace (isPlace_of_kind kind) _
  | cmp => exact exists_withTwo checked rfl (by rintro ⟨⟩) fun a b _ _ => ⟨_, rfl⟩

theorem exists_logic {op : LogicOp}
    (checked : (Operator.logic op).signature.validate given = .ok os) :
    ∃ x : Execution δ Unit, logic? op os = some x := by
  cases op with
  | not =>
      exact exists_withOne checked rfl (by rintro ⟨⟩) fun a kind =>
        exists_atPlace (isPlace_of_kind kind) _
  | and | or | xor =>
      exact exists_withTwo checked rfl (by rintro ⟨⟩) fun a b kind _ =>
        exists_atPlace (isPlace_of_kind kind) _
  | test => exact exists_withTwo checked rfl (by rintro ⟨⟩) fun a b _ _ => ⟨_, rfl⟩

theorem exists_bits {op : BitOp}
    (checked : (Operator.bits op).signature.validate given = .ok os) :
    ∃ x : Execution δ Unit, bits? op os = some x := by
  cases op with
  | bsf | bsr =>
      exact exists_withTwo checked rfl (by rintro ⟨⟩) fun a b kind _ =>
        exists_atPlace (isPlace_of_register kind) _
  | bt | btc | btr | bts =>
      exact exists_withTwo checked rfl (by rintro ⟨⟩) fun a b kind _ =>
        exists_atPlace (isPlace_of_kind kind) _

theorem exists_transfer {op : TransferOp}
    (checked : (Operator.transfer op).signature.validate given = .ok os) :
    ∃ x : Execution δ Unit, transfer? op os = some x := by
  cases op with
  | mov | cmpxchg =>
      exact exists_withTwo checked rfl (by rintro ⟨⟩) fun a b kind _ =>
        exists_atPlace (isPlace_of_kind kind) _
  | movzx | movsx =>
      exact exists_withTwo checked rfl (by rintro ⟨⟩) fun a b kind _ =>
        exists_atPlace (isPlace_of_register kind) _
  | xchg =>
      refine exists_withTwo checked rfl (by rintro ⟨⟩) fun a b first second => ?_
      refine ⟨exchange a b, Option.bind_eq_some_iff.mpr ⟨exchange a b, ?_, ?_⟩⟩
      · exact if_pos (isPlace_of_kind first)
      · exact if_pos (isPlace_of_kind second)
  | xadd =>
      refine exists_withTwo checked rfl (by rintro ⟨⟩) fun a b first second => ?_
      refine ⟨exchangeAdd a b, Option.bind_eq_some_iff.mpr ⟨exchangeAdd a b, ?_, ?_⟩⟩
      · exact if_pos (isPlace_of_kind first)
      · exact if_pos (isPlace_of_register second)
  | lea =>
      refine exists_withTwo checked rfl (by rintro ⟨⟩) fun a b first second => ?_
      obtain ⟨m, rfl⟩ := eq_memory_of_kind (List.mem_singleton.mp second)
      exact exists_atPlace (isPlace_of_register first) _
  | xlatb => exact exists_alone checked rfl _
  | bswap =>
      exact exists_withOne checked rfl (by rintro ⟨⟩) fun a kind =>
        exists_atPlace (isPlace_of_register kind) _

theorem exists_stack {op : StackOp}
    (checked : (Operator.stack op).signature.validate given = .ok os) :
    ∃ x : Execution δ Unit, stack? op os = some x := by
  cases op with
  | push => exact exists_withOne checked rfl (by rintro ⟨⟩) fun a _ => ⟨_, rfl⟩
  | pop =>
      exact exists_withOne checked rfl (by rintro ⟨⟩) fun a kind =>
        exists_atPlace (isPlace_of_kind kind) _
  | pushad | pushfd | popad | popfd => exact exists_alone checked rfl _

theorem exists_control {op : ControlOp}
    (checked : (Operator.control op).signature.validate given = .ok os) :
    ∃ x : Execution δ Unit, control? op os = some x := by
  cases op with
  | call | jmp | int => exact exists_withOne checked rfl (by rintro ⟨⟩) fun a _ => ⟨_, rfl⟩
  | ret =>
      -- the one operator that may go without its operand
      rcases Signature.one_of_validate checked rfl with ⟨-, rfl⟩ | ⟨count, rfl, -⟩
      · exact ⟨_, rfl⟩
      · exact ⟨_, rfl⟩
  | iret | hlt => exact exists_alone checked rfl _

theorem exists_port [PortDevice δ] {op : PortOp}
    (checked : (Operator.port op).signature.validate given = .ok os) :
    ∃ x : Execution δ Unit, port? op os = some x := by
  cases op with
  | input =>
      refine exists_withTwo checked rfl (by rintro ⟨⟩) fun a b first _ => ?_
      obtain ⟨r, rfl⟩ := eq_register_of_kind (List.mem_singleton.mp first)
      exact ⟨_, rfl⟩
  | output => exact exists_withTwo checked rfl (by rintro ⟨⟩) fun a b _ _ => ⟨_, rfl⟩
  | ins w | outs w => exact exists_alone checked rfl _

theorem exists_system {op : SystemOp}
    (checked : (Operator.system op).signature.validate given = .ok os) :
    ∃ x : Execution δ Unit, system? op os = some x := by
  cases op with
  | lidt => exact exists_withOne checked rfl (by rintro ⟨⟩) fun a _ => ⟨_, rfl⟩
  | sidt | rdrand =>
      exact exists_withOne checked rfl (by rintro ⟨⟩) fun a kind =>
        exists_atPlace (isPlace_of_register kind) _
  | xsave | xrstor =>
      refine exists_withOne checked rfl (by rintro ⟨⟩) fun a kind => ?_
      obtain ⟨m, rfl⟩ := eq_memory_of_kind (List.mem_singleton.mp kind)
      exact ⟨_, rfl⟩
  | nop | clc | stc | cmc | cld | std | cli | sti | cwd | cdq =>
      exact exists_alone checked rfl _

end Execution

namespace Operator

open Operand Execution

variable {δ : Type} [PortDevice δ] {op : Operator} {os given : Operands}

/-- Operands that have passed the check of an operator are all it needs. -/
theorem exists_action (checked : op.signature.validate given = .ok os) :
    ∃ x : Execution δ Unit, op.action? os = some x := by
  cases op with
  | arithmetic op => exact exists_arithmetic checked
  | logic op => exact exists_logic checked
  | shift op =>
      exact exists_withTwo checked rfl (by rintro ⟨⟩) fun a b kind _ =>
        exists_atPlace (isPlace_of_kind kind) _
  | bits op => exact exists_bits checked
  | transfer op => exact exists_transfer checked
  | stack op => exact exists_stack checked
  | control op => exact exists_control checked
  | loop op => exact exists_withOne checked rfl (by rintro ⟨⟩) fun a _ => ⟨_, rfl⟩
  | jump c => exact exists_withOne checked rfl (by rintro ⟨⟩) fun a _ => ⟨_, rfl⟩
  | move c =>
      exact exists_withTwo checked rfl (by rintro ⟨⟩) fun a b kind _ =>
        exists_atPlace (isPlace_of_register kind) _
  | set c =>
      exact exists_withOne checked rfl (by rintro ⟨⟩) fun a kind =>
        exists_atPlace (isPlace_of_kind kind) _
  | string op w => exact exists_alone checked rfl _
  | port op => exact exists_port checked
  | wide op => exact exists_withOne checked rfl (by rintro ⟨⟩) fun a _ => ⟨_, rfl⟩
  | system op => exact exists_system checked
  | rep => exact exists_alone checked rfl _

end Operator

end ReducedX86
