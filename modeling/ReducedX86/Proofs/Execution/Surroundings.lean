import ReducedX86.Processor.Step
import ReducedX86.Proofs.Execution.Outcome

/-!
What instructions do not look at.

Apart from the port transfers, an instruction acts on registers, flags, memory, the handler table,
the next instruction and the conditions of a halt. The rest of a processor, its `surroundings`, is
neither read nor changed: the instruction does inside any surroundings, with a device of any kind,
what it does elsewhere. A port transfer changes the buffer and the device, and may be left pending.
The same holds of the random numbers to come, unless the instruction draws one.
-/
namespace ReducedX86

variable {δ ε : Type}

/-- What an instruction that is no port transfer neither reads nor changes. -/
structure Surroundings (δ : Type) where
  program : Array Instruction
  fault : Option Fault
  faultLog : List Fault
  pendingTransfer : Option PendingTransfer
  interruptQueue : List UInt8
  buffer : Word
  device : δ
  now : Reading

/-- What takes the place of the surroundings and of the random numbers. -/
abbrev Disguise (δ ε : Type) := Surroundings δ → Feed Word → Surroundings ε × Feed Word

namespace Processor

def surroundings (p : Processor δ) : Surroundings δ where
  program := p.program
  fault := p.fault
  faultLog := p.faultLog
  pendingTransfer := p.pendingTransfer
  interruptQueue := p.interruptQueue
  buffer := p.buffer
  device := p.device
  now := p.now

/-- The processor in other surroundings, perhaps with another kind of device. -/
@[reducible] def inside (p : Processor δ) (s : Surroundings ε) : Processor ε :=
  { p with
    program := s.program
    fault := s.fault
    faultLog := s.faultLog
    pendingTransfer := s.pendingTransfer
    interruptQueue := s.interruptQueue
    buffer := s.buffer
    device := s.device
    now := s.now }

/-- The processor with its surroundings and its random numbers replaced. -/
@[reducible] def disguised (p : Processor δ) (f : Disguise δ ε) : Processor ε :=
  { p.inside (f p.surroundings p.draws).1 with draws := (f p.surroundings p.draws).2 }

theorem inside_surroundings (p : Processor δ) : p.inside p.surroundings = p := rfl

theorem surroundings_inside (p : Processor δ) (s : Surroundings ε) :
    (p.inside s).surroundings = s := rfl

section Disguised

variable (p : Processor δ) (f : Disguise δ ε)

@[simp] theorem disguised_memory : (p.disguised f).memory = p.memory := rfl

@[simp] theorem disguised_flags : (p.disguised f).flags = p.flags := rfl

@[simp] theorem disguised_handlerTable : (p.disguised f).handlerTable = p.handlerTable := rfl

@[simp] theorem disguised_nextInstruction : (p.disguised f).nextInstruction = p.nextInstruction := rfl

@[simp] theorem disguised_reg (r : Register) : (p.disguised f).reg r = p.reg r := rfl

@[simp] theorem disguised_addressOf (m : MemoryOperand) :
    (p.disguised f).addressOf m = p.addressOf m := rfl

@[simp] theorem disguised_readFault? (o : Operand) : (p.disguised f).readFault? o = p.readFault? o := by
  cases o <;> rfl

@[simp] theorem disguised_writeFault? (o : Operand) :
    (p.disguised f).writeFault? o = p.writeFault? o := by
  cases o <;> rfl

@[simp] theorem disguised_valueOf (o : Operand) : (p.disguised f).valueOf o = p.valueOf o := by
  cases o <;> rfl

@[simp] theorem disguised_wordsFault? (address : Word) (count : Nat) :
    (p.disguised f).wordsFault? address count = p.wordsFault? address count := by
  induction count generalizing address with
  | zero => rfl
  | succ count ih => rw [wordsFault?, wordsFault?, ih]

@[simp] theorem disguised_wordsAt (address : Word) (count : Nat) :
    (p.disguised f).wordsAt address count = p.wordsAt address count := by
  induction count generalizing address with
  | zero => rfl
  | succ count ih => rw [wordsAt, wordsAt, ih]

@[simp] theorem disguised_setReg (r : Register) (value : Word) :
    (p.disguised f).setReg r value = (p.setReg r value).disguised f := rfl

@[simp] theorem disguised_withFlags (flags : Flags) :
    (p.disguised f).withFlags flags = (p.withFlags flags).disguised f := rfl

@[simp] theorem disguised_jumpTo (address : Word) :
    (p.disguised f).jumpTo address = (p.jumpTo address).disguised f := rfl

@[simp] theorem disguised_storeAt (address value : Word) (size : Nat) :
    (p.disguised f).storeAt address value size = (p.storeAt address value size).disguised f := rfl

@[simp] theorem disguised_advance (r : Register) (size : Nat) :
    (p.disguised f).advance r size = (p.advance r size).disguised f := rfl

@[simp] theorem disguised_put (o : Operand) (value : Word) :
    (p.disguised f).put o value = (p.put o value).disguised f := by
  cases o <;> rfl

@[simp] theorem disguised_setRegisters (values : List (Register × Word)) :
    (p.disguised f).setRegisters values = (p.setRegisters values).disguised f := by
  induction values generalizing p with
  | nil => rfl
  | cons value rest ih => exact ih (p.setReg value.1 value.2)

end Disguised

/-- The processor after an exchange with its device. -/
def exchanged (p : Processor δ) (buffer : Word) (device : δ) : Processor δ :=
  { p with buffer, device }

def suspended (p : Processor δ) (t : PendingTransfer) : Processor δ :=
  { p with pendingTransfer := some t }

/-- What the device answers to a request for input. -/
def inputFrom [PortDevice δ] (p : Processor δ) (number : Word) (size : Nat) : Bool × Word × δ :=
  PortDevice.input p.device p.now number size p.buffer

/-- What the device answers to an offer of output. -/
def outputTo [PortDevice δ] (p : Processor δ) (number value : Word) (size : Nat) : Bool × δ :=
  PortDevice.output p.device p.now number size value

section Clock

variable (p : Processor δ)

@[simp] theorem now_setReg (r : Register) (value : Word) : (p.setReg r value).now = p.now := rfl

@[simp] theorem now_storeAt (address value : Word) (size : Nat) :
    (p.storeAt address value size).now = p.now := rfl

@[simp] theorem now_advance (r : Register) (size : Nat) : (p.advance r size).now = p.now := rfl

@[simp] theorem now_exchanged (buffer : Word) (device : δ) :
    (p.exchanged buffer device).now = p.now := rfl

@[simp] theorem now_suspended (t : PendingTransfer) : (p.suspended t).now = p.now := rfl

end Clock

end Processor

namespace Execution

variable {α : Type}

/-- Inside any surroundings `y` does what `x` does elsewhere, and leaves the surroundings alone. -/
def Portable (x : Execution δ α) (y : Execution ε α) : Prop :=
  ∀ p s (done : α → Processor ε → Prop) (failed : Fault → Processor ε → Prop),
    Outcome y done failed (p.inside s) ↔
      Outcome x (fun a q => done a (q.inside s)) (fun f q => failed f (q.inside s)) p

theorem Portable.carries {x : Execution δ α} {y : Execution ε α} (portable : Portable x y)
    (s : Surroundings ε) : Carries (fun p : Processor δ => p.inside s) x y :=
  fun p => portable p s

/-- An execution that runs inside any surroundings keeps its own. -/
theorem Portable.keeps {x : Execution δ α} (portable : Portable x x) (p : Processor δ) :
    Outcome x (fun _ q => q.surroundings = p.surroundings)
      (fun _ q => q.surroundings = p.surroundings) p := by
  have own := portable p p.surroundings (fun _ q => q.surroundings = p.surroundings)
    (fun _ q => q.surroundings = p.surroundings)
  rw [Processor.inside_surroundings] at own
  rw [own]
  cases ran : x.run p <;> simp [Outcome, ran, Processor.surroundings_inside]

/-- Under any disguise `y` does what `x` does without. -/
def Unaware (x : Execution δ α) (y : Execution ε α) : Prop :=
  ∀ f : Disguise δ ε, Carries (Processor.disguised · f) x y

theorem Unaware.portable {x : Execution δ α} {y : Execution ε α} (unaware : Unaware x y) :
    Portable x y :=
  fun p s => unaware (fun _ draws => (s, draws)) p

theorem Unaware.keeps {x : Execution δ α} (unaware : Unaware x x) (p : Processor δ) :
    Outcome x (fun _ q => q.surroundings = p.surroundings)
      (fun _ q => q.surroundings = p.surroundings) p :=
  unaware.portable.keeps p

theorem unaware_pure (a : α) : Unaware (δ := δ) (ε := ε) (pure a) (pure a) :=
  fun _ _ _ _ => Iff.rfl

theorem Unaware.discard {x : Execution δ α} {y : Execution ε α} (unaware : Unaware x y) :
    Unaware (discard x) (discard y) := by
  intro f p done failed
  rw [outcome_discard, outcome_discard]
  exact unaware f p (fun _ => done ()) failed

theorem Unaware.bind {β : Type} {x : Execution δ α} {y : Execution ε α}
    {k : α → Execution δ β} {l : α → Execution ε β} (unaware : Unaware x y)
    (rest : ∀ a, Unaware (k a) (l a)) : Unaware (x >>= k) (y >>= l) := by
  intro f p done failed
  rw [outcome_bind, outcome_bind, unaware f]
  simp only [rest _ f _ done failed]

theorem unaware_reg (r : Register) : Unaware (δ := δ) (ε := ε) (reg r) (reg r) :=
  fun _ _ _ _ => Iff.rfl

theorem unaware_setReg (r : Register) (value : Word) :
    Unaware (δ := δ) (ε := ε) (setReg r value) (setReg r value) :=
  fun _ _ _ _ => Iff.rfl

theorem unaware_readMemory (address : Word) (size : Nat) :
    Unaware (δ := δ) (ε := ε) (readMemory address size) (readMemory address size) := by
  intro f p done failed
  simp

theorem unaware_read (o : Operand) : Unaware (δ := δ) (ε := ε) (read o) (read o) := by
  intro f p done failed
  simp

theorem unaware_write (o : Operand) (value : Word) :
    Unaware (δ := δ) (ε := ε) (write o value) (write o value) := by
  intro f p done failed
  simp

theorem unaware_arithmetic (op : ArithmeticOp) (operands : Operands) :
    Unaware (δ := δ) (ε := ε) (arithmetic op operands) (arithmetic op operands) := by
  intro f p done failed
  obtain ⟨dst | dst, src | src⟩ := operands <;>
    cases op <;> simp [arithmetic, unaryArithmetic, binaryArithmetic]

theorem unaware_logic (op : LogicOp) (operands : Operands) :
    Unaware (δ := δ) (ε := ε) (logic op operands) (logic op operands) := by
  intro f p done failed
  obtain ⟨dst | dst, src | src⟩ := operands <;> cases op <;> simp [logic]

theorem unaware_shift (op : ShiftOp) (operands : Operands) :
    Unaware (δ := δ) (ε := ε) (shift op operands) (shift op operands) := by
  intro f p done failed
  obtain ⟨dst | dst, count | count⟩ := operands <;> simp [shift]

theorem unaware_testBitString (op : BitOp) (m : MemoryOperand) (k : Int) :
    Unaware (δ := δ) (ε := ε) (testBitString op m k) (testBitString op m k) := by
  intro f p done failed
  cases op <;> simp [testBitString, setCarry, changedBit?]

theorem unaware_testOperandBit (op : BitOp) (dst : Operand) (i : Nat) :
    Unaware (δ := δ) (ε := ε) (testOperandBit op dst i) (testOperandBit op dst i) := by
  intro f p done failed
  cases op <;> simp [testOperandBit, setCarry, changedBit?]

theorem unaware_bits (op : BitOp) (operands : Operands) :
    Unaware (δ := δ) (ε := ε) (bits op operands) (bits op operands) := by
  obtain ⟨dst | dst, src | src⟩ := operands
  · exact unaware_pure ()
  · exact unaware_pure ()
  · exact unaware_pure ()
  · intro f p done failed
    cases op with
    | bsf | bsr => simp [bits, scanBits]
    | bt | btc | btr | bts =>
        simp only [bits, outcome_bind, outcome_read, Processor.disguised_readFault?,
          Processor.disguised_valueOf]
        refine and_congr_right fun _ => forall_congr' fun _ => ?_
        split
        · exact unaware_testBitString _ _ _ f p done failed
        · exact unaware_testOperandBit _ _ _ f p done failed

theorem unaware_transfer (op : TransferOp) (operands : Operands) :
    Unaware (δ := δ) (ε := ε) (transfer op operands) (transfer op operands) := by
  intro f p done failed
  obtain ⟨dst | dst, src | src⟩ := operands
  · cases op <;> simp [transfer, translate]
  · cases op <;> simp [transfer, translate]
  · cases op <;> simp [transfer, translate]
  · cases op with
    | lea => cases src <;> simp [transfer]
    | _ => simp [transfer, translate, exchange, exchangeAdd, compareExchange]

theorem unaware_conditionalMove (c : Condition) (operands : Operands) :
    Unaware (δ := δ) (ε := ε) (conditionalMove c operands) (conditionalMove c operands) := by
  intro f p done failed
  obtain ⟨dst | dst, src | src⟩ := operands <;> simp [conditionalMove]

theorem unaware_conditionalSet (c : Condition) (operands : Operands) :
    Unaware (δ := δ) (ε := ε) (conditionalSet c operands) (conditionalSet c operands) := by
  intro f p done failed
  obtain ⟨dst | dst, src⟩ := operands <;> simp [conditionalSet]

theorem unaware_readWords (address : Word) (count : Nat) :
    Unaware (δ := δ) (ε := ε) (readWords address count) (readWords address count) := by
  intro f p done failed
  simp

theorem unaware_setRegisters (values : List (Register × Word)) :
    Unaware (δ := δ) (ε := ε) (setRegisters values) (setRegisters values) := by
  intro f p done failed
  simp

theorem unaware_popAll : Unaware (δ := δ) (ε := ε) popAll popAll :=
  (unaware_reg .esp).bind fun top =>
    (unaware_readWords top 8).bind fun _ =>
      (unaware_setRegisters _).bind fun _ => (unaware_setReg .esp (top + 32)).discard

theorem unaware_stack (op : StackOp) (operands : Operands) :
    Unaware (δ := δ) (ε := ε) (stack op operands) (stack op operands) := by
  intro f p done failed
  cases op with
  | popad => exact unaware_popAll f p done failed
  | _ =>
      obtain ⟨a | a, b⟩ := operands <;>
        simp [stack, push, pop, popTo, pushAll, writeRegisters, stackBlock]

theorem unaware_enterHandler (number : Word) :
    Unaware (δ := δ) (ε := ε) (enterHandler number) (enterHandler number) := by
  intro f p done failed
  simp [enterHandler]

theorem unaware_interrupt (number : Word) :
    Unaware (δ := δ) (ε := ε) (interrupt number) (interrupt number) := by
  intro f p done failed
  by_cases breakpoint : number = 3
  · simp only [interrupt, if_pos breakpoint, outcome_modify]
    exact Iff.rfl
  · simp only [interrupt, if_neg breakpoint]
    exact unaware_enterHandler number f p done failed

theorem unaware_control (op : ControlOp) (operands : Operands) :
    Unaware (δ := δ) (ε := ε) (control op operands) (control op operands) := by
  intro f p done failed
  obtain ⟨a | a, b⟩ := operands
  · cases op with
    | hlt =>
        simp only [control, outcome_modify]
        exact Iff.rfl
    | _ => simp [control, ret, interruptReturn]
  · cases op with
    | int =>
        simp only [control, outcome_bind, outcome_read, Processor.disguised_readFault?,
          Processor.disguised_valueOf]
        refine and_congr_right fun _ => forall_congr' fun _ => ?_
        exact unaware_interrupt _ f p done failed
    | hlt =>
        simp only [control, outcome_modify]
        exact Iff.rfl
    | _ => simp [control, call, push, ret, interruptReturn]

theorem unaware_loop (op : LoopOp) (operands : Operands) :
    Unaware (δ := δ) (ε := ε) (loop op operands) (loop op operands) := by
  intro f p done failed
  obtain ⟨target | target, src⟩ := operands <;> simp [loop]

theorem unaware_conditionalJump (c : Condition) (operands : Operands) :
    Unaware (δ := δ) (ε := ε) (conditionalJump c operands) (conditionalJump c operands) := by
  intro f p done failed
  obtain ⟨target | target, src⟩ := operands <;> simp [conditionalJump]

theorem unaware_countRepetition :
    Unaware (δ := δ) (ε := ε) countRepetition countRepetition := by
  intro f p done failed
  simp [countRepetition]

theorem unaware_string (op : StringOp) (w : Width) :
    Unaware (δ := δ) (ε := ε) (string op w) (string op w) := by
  intro f p done failed
  cases op <;> simp [string]

theorem unaware_wide (op : WideOp) (operands : Operands) :
    Unaware (δ := δ) (ε := ε) (wide op operands) (wide op operands) := by
  obtain ⟨src | src, b⟩ := operands
  · exact unaware_pure ()
  · intro f p done failed
    cases op <;>
      simp [wide, multiply, multiplySigned, divide, divideSigned, setProduct, setHalves, dividend]

theorem unaware_fillHigh (low high : Register) :
    Unaware (δ := δ) (ε := ε) (fillHigh low high) (fillHigh low high) := by
  intro f p done failed
  cases sign : (p.reg low).negative low.size <;> simp [fillHigh, sign]

theorem unaware_restoreState (m : MemoryOperand) :
    Unaware (δ := δ) (ε := ε) (restoreState m) (restoreState m) := by
  intro f p done failed
  simp only [restoreState, outcome_bind, outcome_get, outcome_readWords, outcome_readMemory,
    outcome_setFlags, Processor.disguised_addressOf, Processor.disguised_wordsFault?,
    Processor.disguised_wordsAt]
  refine and_congr_right fun _ => forall_congr' fun _ => ?_
  refine and_congr_right fun _ => forall_congr' fun _ => ?_
  exact unaware_setRegisters _ f p (fun _ q => done () (q.withFlags _)) failed

theorem unaware_system (op : SystemOp) (operands : Operands) (drawless : op ≠ .rdrand) :
    Unaware (δ := δ) (ε := ε) (system op operands) (system op operands) := by
  intro f p done failed
  obtain ⟨a | a, b⟩ := operands
  · cases op with
    | cwd | cdq => exact unaware_fillHigh _ _ f p done failed
    | _ => simp [system]
  · cases op with
    | cwd | cdq => exact unaware_fillHigh _ _ f p done failed
    | rdrand => exact absurd rfl drawless
    | xsave => cases a <;> simp [system, saveState, writeRegisters, stateBlock]
    | xrstor =>
        cases a with
        | memory m => exact unaware_restoreState m f p done failed
        | _ => simp [system]
    | lidt =>
        simp only [system, outcome_bind, outcome_read, outcome_modify,
          Processor.disguised_readFault?, Processor.disguised_valueOf]
        exact Iff.rfl
    | _ => simp [system]

/-- A random number is the next of those to come, whatever the surroundings. -/
theorem portable_random (dst : Operand) :
    Portable (δ := δ) (ε := ε) (random dst) (random dst) := by
  intro p s done failed
  let flags : Flags :=
    { p.flags with carry := true, overflow := false, zero := false, sign := false }
  simp only [random, outcome_bind, outcome_setFlags, outcome_draw, outcome_discard]
  exact (unaware_write dst p.draws.head).portable
    { p.withFlags flags with draws := p.draws.tail } s (fun _ => done ()) failed

section Ports

variable [PortDevice δ] {p : Processor δ} {failed : Fault → Processor δ → Prop}

@[simp] theorem outcome_requestInput {done : Bool → Processor δ → Prop} (number : Word)
    (size : Nat) :
    Outcome (requestInput number size) done failed p ↔
      done (p.inputFrom number size).1
        (p.exchanged (p.inputFrom number size).2.1 (p.inputFrom number size).2.2) := Iff.rfl

@[simp] theorem outcome_requestOutput {done : Bool → Processor δ → Prop} (number value : Word)
    (size : Nat) :
    Outcome (requestOutput number value size) done failed p ↔
      done (p.outputTo number value size).1
        (p.exchanged value (p.outputTo number value size).2) := Iff.rfl

omit [PortDevice δ] in
@[simp] theorem outcome_suspend {done : Unit → Processor δ → Prop} (t : PendingTransfer) :
    Outcome (suspend t) done failed p ↔ done () (p.suspended t) := Iff.rfl

theorem port_now (op : PortOp) (operands : Operands) (p : Processor δ) :
    Outcome (port op operands) (fun _ q => q.now = p.now) (fun _ q => q.now = p.now) p := by
  unfold port
  split <;> simp [inputTo, outputFrom, inputString, outputString]

end Ports

end Execution

namespace Instruction

variable [PortDevice δ] [PortDevice ε]

theorem unaware_execute (i : Instruction) (other : ∀ op, i.op ≠ .port op)
    (drawless : i.op ≠ .system .rdrand) :
    Execution.Unaware (δ := δ) (ε := ε) i.execute i.execute := by
  obtain ⟨op, op1, op2, position⟩ := i
  cases op with
  | arithmetic op => exact Execution.unaware_arithmetic op _
  | logic op => exact Execution.unaware_logic op _
  | shift op => exact Execution.unaware_shift op _
  | bits op => exact Execution.unaware_bits op _
  | transfer op => exact Execution.unaware_transfer op _
  | stack op => exact Execution.unaware_stack op _
  | control op => exact Execution.unaware_control op _
  | loop op => exact Execution.unaware_loop op _
  | jump c => exact Execution.unaware_conditionalJump c _
  | move c => exact Execution.unaware_conditionalMove c _
  | set c => exact Execution.unaware_conditionalSet c _
  | string op w => exact Execution.unaware_string op w
  | port op => exact absurd rfl (other op)
  | wide op => exact Execution.unaware_wide op _
  | system op => exact Execution.unaware_system op _ fun same => drawless (congrArg _ same)
  | rep => exact Execution.unaware_countRepetition.discard

theorem portable_execute (i : Instruction) (other : ∀ op, i.op ≠ .port op) :
    Execution.Portable (δ := δ) (ε := ε) i.execute i.execute := by
  by_cases draws : i.op = .system .rdrand
  · obtain ⟨_, op1, op2, position⟩ := i
    cases draws
    cases op1 with
    | none => exact (Execution.unaware_pure ()).portable
    | some dst => exact Execution.portable_random dst
  · exact (i.unaware_execute other draws).portable

omit [PortDevice ε] in
/-- No instruction sets the clock. -/
theorem execute_now (i : Instruction) (p : Processor δ) :
    Outcome i.execute (fun _ q => q.now = p.now) (fun _ q => q.now = p.now) p := by
  by_cases other : ∀ op, i.op ≠ .port op
  · apply ((i.portable_execute other).keeps p).mono
    · intro _ q same
      exact congrArg Surroundings.now same
    · intro _ q same
      exact congrArg Surroundings.now same
  · obtain ⟨op, isPort⟩ : ∃ op, i.op = .port op := by simpa using other
    obtain ⟨_, op1, op2, position⟩ := i
    cases isPort
    exact Execution.port_now op _ p

end Instruction

end ReducedX86
