import ReducedX86.Proofs.Execution.Outcome

/-!
What instructions leave alone.

A view shows something of a processor that depends neither on the contents of registers and memory
nor on flags, the handler table, the next instruction and the random numbers. Instructions are made
of actions on these, so all but those that halt or exchange with a device keep whatever a view
shows.
-/
namespace ReducedX86

variable {δ α β : Type}

structure View (δ β : Type) where
  look : Processor δ → β
  look_setReg (p : Processor δ) (r : Register) (value : Word) : look (p.setReg r value) = look p
  look_withFlags (p : Processor δ) (flags : Flags) : look (p.withFlags flags) = look p
  look_jumpTo (p : Processor δ) (address : Word) : look (p.jumpTo address) = look p
  look_storeAt (p : Processor δ) (address value : Word) (size : Nat) :
    look (p.storeAt address value size) = look p
  look_handlerTable (p : Processor δ) (handlerTable : Word) :
    look { p with handlerTable } = look p
  look_draws (p : Processor δ) (draws : Feed Word) : look { p with draws } = look p

namespace View

attribute [simp] look_setReg look_withFlags look_jumpTo look_storeAt

variable (v : View δ β) (p : Processor δ)

@[simp] theorem look_advance (r : Register) (size : Nat) : v.look (p.advance r size) = v.look p :=
  v.look_setReg ..

@[simp] theorem look_put (o : Operand) (value : Word) : v.look (p.put o value) = v.look p := by
  cases o with
  | register r => exact v.look_setReg ..
  | memory m => exact v.look_storeAt ..
  | immediate _ _ | label _ => rfl

@[simp] theorem look_setRegisters (values : List (Register × Word)) :
    v.look (p.setRegisters values) = v.look p := by
  induction values generalizing p with
  | nil => rfl
  | cons value rest ih => exact (ih (p.setReg value.1 value.2)).trans (v.look_setReg ..)

end View

namespace Execution

/-- Whether it ends well or in a fault, the execution does not change what the view shows. -/
def Keeps (v : View δ β) (x : Execution δ α) : Prop :=
  ∀ p, Outcome x (fun _ q => v.look q = v.look p) (fun _ q => v.look q = v.look p) p

variable (v : View δ β)

theorem keeps_pure (a : α) : Keeps v (pure a : Execution δ α) := fun _ => rfl

theorem keeps_writeMemory (address value : Word) (size : Nat) :
    Keeps v (writeMemory address value size) := by
  intro p
  simp

theorem keeps_arithmetic (op : ArithmeticOp) (operands : Operands) :
    Keeps v (arithmetic op operands) := by
  intro p
  obtain ⟨dst | dst, src | src⟩ := operands <;>
    cases op <;> simp [arithmetic, unaryArithmetic, binaryArithmetic]

theorem keeps_logic (op : LogicOp) (operands : Operands) :
    Keeps v (logic op operands) := by
  intro p
  obtain ⟨dst | dst, src | src⟩ := operands <;> cases op <;> simp [logic]

theorem keeps_shift (op : ShiftOp) (operands : Operands) :
    Keeps v (shift op operands) := by
  intro p
  obtain ⟨dst | dst, count | count⟩ := operands <;> simp [shift]

theorem keeps_testBitString (op : BitOp) (m : MemoryOperand) (k : Int) :
    Keeps v (testBitString op m k) := by
  intro p
  simp only [testBitString, setCarry, outcome_bind, outcome_get, outcome_readMemory,
    outcome_setFlags]
  refine ⟨fun _ _ => trivial, fun _ => ?_⟩
  split <;> simp

theorem keeps_testOperandBit (op : BitOp) (dst : Operand) (i : Nat) :
    Keeps v (testOperandBit op dst i) := by
  intro p
  simp only [testOperandBit, setCarry, outcome_bind, outcome_read, outcome_setFlags]
  refine ⟨fun _ _ => trivial, fun _ => ?_⟩
  split <;> simp

theorem keeps_bits (op : BitOp) (operands : Operands) :
    Keeps v (bits op operands) := by
  intro p
  obtain ⟨dst | dst, src | src⟩ := operands
  · exact keeps_pure v () p
  · exact keeps_pure v () p
  · exact keeps_pure v () p
  · cases op with
    | bsf | bsr => simp [bits, scanBits]
    | bt | btc | btr | bts =>
        simp only [bits, outcome_bind, outcome_read]
        refine ⟨fun _ _ => trivial, fun _ => ?_⟩
        split
        · exact keeps_testBitString v _ _ _ p
        · exact keeps_testOperandBit v _ _ _ p

theorem keeps_transfer (op : TransferOp) (operands : Operands) :
    Keeps v (transfer op operands) := by
  intro p
  obtain ⟨dst | dst, src | src⟩ := operands
  · cases op <;> simp [transfer, translate]
  · cases op <;> simp [transfer, translate]
  · cases op <;> simp [transfer, translate]
  · cases op with
    | lea => cases src <;> simp [transfer]
    | _ => simp [transfer, translate, exchange, exchangeAdd, compareExchange]

theorem keeps_conditionalMove (c : Condition) (operands : Operands) :
    Keeps v (conditionalMove c operands) := by
  intro p
  obtain ⟨dst | dst, src | src⟩ := operands <;> simp [conditionalMove]

theorem keeps_conditionalSet (c : Condition) (operands : Operands) :
    Keeps v (conditionalSet c operands) := by
  intro p
  obtain ⟨dst | dst, src⟩ := operands <;> simp [conditionalSet]

theorem keeps_stack (op : StackOp) (operands : Operands) :
    Keeps v (stack op operands) := by
  intro p
  obtain ⟨a | a, b⟩ := operands <;> cases op <;> simp [stack, push, pop, popTo, pushAll, popAll,
    writeRegisters, stackBlock]

theorem keeps_loop (op : LoopOp) (operands : Operands) :
    Keeps v (loop op operands) := by
  intro p
  obtain ⟨target | target, src⟩ := operands <;> simp [loop]

theorem keeps_conditionalJump (c : Condition) (operands : Operands) :
    Keeps v (conditionalJump c operands) := by
  intro p
  obtain ⟨target | target, src⟩ := operands <;> simp [conditionalJump]

theorem keeps_countRepetition : Keeps v countRepetition := by
  intro p
  simp [countRepetition]

theorem keeps_string (op : StringOp) (w : Width) :
    Keeps v (string op w) := by
  intro p
  cases op <;> simp [string]

theorem keeps_wide (op : WideOp) (operands : Operands) :
    Keeps v (wide op operands) := by
  intro p
  obtain ⟨src | src, b⟩ := operands
  · exact keeps_pure v () p
  · cases op <;>
      simp [wide, multiply, multiplySigned, divide, divideSigned, setProduct, setHalves, dividend]

theorem keeps_system (op : SystemOp) (operands : Operands) :
    Keeps v (system op operands) := by
  intro p
  obtain ⟨a | a, b⟩ := operands
  · cases op <;> simp [system, fillHigh]
  · cases op with
    | xsave => cases a <;> simp [system, saveState, writeRegisters, stateBlock]
    | xrstor => cases a <;> simp [system, restoreState]
    | lidt =>
        simp only [system, outcome_bind, outcome_read, outcome_modify]
        exact ⟨fun _ _ => trivial, fun _ => v.look_handlerTable ..⟩
    | rdrand =>
        simp only [system, random, outcome_bind, outcome_setFlags, outcome_draw, outcome_discard,
          outcome_write, View.look_put, v.look_draws, v.look_withFlags, implies_true, and_self]
    | _ => simp [system, fillHigh]

theorem Keeps.discard {v : View δ β} {x : Execution δ α} (keeps : Keeps v x) :
    Keeps v (discard x) := by
  intro p
  rw [outcome_discard]
  exact keeps p

theorem keeps_enterHandler (number : Word) :
    Keeps v (enterHandler number) := by
  intro p
  simp [enterHandler]

end Execution

end ReducedX86
