import ReducedX86.Device.Script
import ReducedX86.Proofs.Execution.Operands
import ReducedX86.Proofs.Instruction.Restoring

/-!
Exchanges.

An exchange stores through its second operand first. Where that leaves the address of the first one
alone, the two places have exchanged what they held, and the order of the operands does not matter.
A register that is stored first may be part of the address of the other operand: then the second
store goes to the place that is named afterwards, or faults when the register has already changed.
-/
namespace ReducedX86

namespace Operand

/-- A store through one of the operands does not change what the other holds. -/
def Apart : Operand → Operand → Prop
  | .register r, .register s => r.Apart s
  | .memory _, .memory _ => False
  | _, _ => True

theorem eq_or_apart {a b : Operand} (once : (a.isMemory && b.isMemory) = false)
    (same : a.size = b.size) : a = b ∨ a.Apart b := by
  cases a with
  | register r =>
      cases b with
      | register s => exact (Register.eq_or_apart same).imp (congrArg register) id
      | memory _ | immediate _ _ | label _ => exact .inr trivial
  | memory m =>
      cases b with
      | memory _ => cases once
      | register _ | immediate _ _ | label _ => exact .inr trivial
  | immediate _ _ | label _ => exact .inr trivial

end Operand

namespace Processor

variable {δ : Type} {p q : Processor δ} {a b o : Operand} {v : Word}

/-- The operand with its address as it is now. -/
def pin (p : Processor δ) : Operand → Operand
  | .memory m => .memory { displacement := p.addressOf m, size := m.size }
  | o => o

@[simp] theorem addressOf_constant (address : Word) (size : Nat) :
    p.addressOf { displacement := address, size } = address := by
  simp [addressOf, MemoryOperand.address]

@[simp] theorem size_pin (p : Processor δ) (o : Operand) : (p.pin o).size = o.size := by
  cases o <;> rfl

@[simp] theorem isPlace_pin (p : Processor δ) (o : Operand) : (p.pin o).isPlace = o.isPlace := by
  cases o <;> rfl

@[simp] theorem readFault?_pin (p : Processor δ) (o : Operand) :
    p.readFault? (p.pin o) = p.readFault? o := by
  cases o <;> simp [pin, readFault?]

@[simp] theorem put_pin (p : Processor δ) (o : Operand) (v : Word) :
    p.put (p.pin o) v = p.put o v := by
  cases o <;> simp [pin, put]

/-- A store does not move a place in or out of the memory. -/
theorem readFault?_put_pin (p : Processor δ) (a b : Operand) (v : Word) :
    (p.put b v).readFault? (p.pin a) = p.readFault? a := by
  cases a <;> cases b <;> simp [pin, put, readFault?, setReg, storeAt]

theorem valueOf_put_pin (place : o.isPlace) (readable : q.readFault? (p.pin o) = none)
    (whole : v.truncate o.size = v) : (q.put (p.pin o) v).valueOf (p.pin o) = v := by
  rw [valueOf_put ((isPlace_pin p o).trans place) readable, size_pin, whole]

section Apart

variable (apart : a.Apart b)

include apart

theorem valueOf_put_of_apart (v : Word) :
    (q.put (p.pin a) v).valueOf (p.pin b) = q.valueOf (p.pin b) := by
  cases a <;> cases b
  case register.register r s => exact RegisterFile.get_set_of_apart q.registers apart v
  case memory.memory => exact apart.elim
  all_goals simp [pin, put, valueOf, setReg, storeAt, reg]

theorem put_comm_of_apart (v w : Word) :
    (q.put (p.pin a) v).put (p.pin b) w = (q.put (p.pin b) w).put (p.pin a) v := by
  cases a <;> cases b
  case register.register r s =>
    simp only [pin, put, setReg, RegisterFile.set_comm q.registers apart]
  case memory.memory => exact apart.elim
  all_goals simp [pin, put, setReg, storeAt]

end Apart

/-- `q` is `p` with what `a` and `b` held exchanged. -/
structure Swaps (a b : Operand) (p q : Processor δ) : Prop where
  first : q.valueOf (p.pin a) = p.valueOf b
  second : q.valueOf (p.pin b) = p.valueOf a
  elsewhere : q = (p.put b (p.valueOf a)).put (p.pin a) (p.valueOf b)

theorem swaps_put (place : a.isPlace) (place' : b.isPlace) (distinct : a = b ∨ a.Apart b)
    (same : a.size = b.size) (readable : p.readFault? a = none)
    (readable' : p.readFault? b = none) :
    p.Swaps a b ((p.put b (p.valueOf a)).put (p.pin a) (p.valueOf b)) := by
  have whole : (p.valueOf a).truncate b.size = p.valueOf a :=
    same ▸ truncate_valueOf (isAccessSize_of_readable place readable)
  have whole' : (p.valueOf b).truncate a.size = p.valueOf b :=
    same ▸ truncate_valueOf (isAccessSize_of_readable place' readable')
  have first :=
    valueOf_put_pin place ((readFault?_put_pin p a b (p.valueOf a)).trans readable) whole'
  refine ⟨first, ?_, rfl⟩
  rcases distinct with rfl | apart
  · exact first
  · rw [valueOf_put_of_apart apart, ← put_pin p b]
    exact valueOf_put_pin place' ((readFault?_pin p b).trans readable') whole

/-- The address of `a` is still the same when `b` has received what `a` holds. -/
def Stays (a b : Operand) (p : Processor δ) : Prop :=
  ∀ m, a = .memory m → (p.put b (p.valueOf a)).addressOf m = p.addressOf m

theorem pin_of_stays (stays : p.Stays a b) : (p.put b (p.valueOf a)).pin a = p.pin a := by
  cases a with
  | memory m => rw [pin, pin, stays m rfl]
  | register _ | immediate _ _ | label _ => rfl

/-- Of two operands that are not both in memory, one can be read. -/
theorem readable_or (once : (a.isMemory && b.isMemory) = false) :
    p.readFault? a = none ∨ p.readFault? b = none := by
  cases a with
  | memory m =>
      cases b with
      | memory _ => cases once
      | register _ | immediate _ _ | label _ => exact .inr rfl
  | register _ | immediate _ _ | label _ => exact .inl rfl

end Processor

namespace Execution

variable {δ : Type} {p : Processor δ} {a b : Operand}

theorem exchange_run (readable : p.readFault? a = none) (readable' : p.readFault? b = none) :
    (exchange a b).run p =
      match (p.put b (p.valueOf a)).writeFault? a with
      | some f => .error f (p.put b (p.valueOf a))
      | none => .ok () ((p.put b (p.valueOf a)).put a (p.valueOf b)) := by
  have writable := Processor.writeFault?_of_readFault? readable'
  split
  · apply Outcome.run_eq_error
    simp_all [exchange]
  · apply Outcome.run_eq_ok
    simp_all [exchange]

theorem exchange_run_of_fault (once : (a.isMemory && b.isMemory) = false) {f : Fault}
    (fault : p.readFault? a = some f ∨ p.readFault? b = some f) :
    (exchange a b).run p = .error f p := by
  have readable := Processor.readable_or (p := p) once
  apply Outcome.run_eq_error
  simp only [exchange, outcome_bind, outcome_read]
  grind

theorem exchange_run_of_stays (readable : p.readFault? a = none) (readable' : p.readFault? b = none)
    (stays : p.Stays a b) :
    (exchange a b).run p = .ok () ((p.put b (p.valueOf a)).put (p.pin a) (p.valueOf b)) := by
  have pinned := Processor.pin_of_stays stays
  have writable : (p.put b (p.valueOf a)).writeFault? a = none := by
    apply Processor.writeFault?_of_readFault?
    rw [← Processor.readFault?_pin, pinned, Processor.readFault?_put_pin, readable]
  rw [exchange_run readable readable', writable, ← pinned, Processor.put_pin]

theorem exchange_comm (distinct : a = b ∨ a.Apart b) (once : (a.isMemory && b.isMemory) = false)
    (stays : p.Stays a b) (stays' : p.Stays b a) :
    (exchange a b).run p = (exchange b a).run p := by
  rcases distinct with rfl | apart
  · rfl
  have once' : (b.isMemory && a.isMemory) = false := by rwa [Bool.and_comm]
  cases fault : p.readFault? a with
  | some f =>
      rw [exchange_run_of_fault once (.inl fault), exchange_run_of_fault once' (.inr fault)]
  | none =>
      cases fault' : p.readFault? b with
      | some f =>
          rw [exchange_run_of_fault once (.inr fault'), exchange_run_of_fault once' (.inl fault')]
      | none =>
          rw [exchange_run_of_stays fault fault' stays, exchange_run_of_stays fault' fault stays',
            ← Processor.put_pin p a, ← Processor.put_pin p b, Processor.put_comm_of_apart apart]

end Execution

namespace Instruction

variable {δ : Type} [PortDevice δ] {i : Instruction} {a b : Operand}

theorem execute_of_exchange (isExchange : i.op = .transfer .xchg) (first : i.op1 = some a)
    (second : i.op2 = some b) : (i.execute : Execution δ Unit) = Execution.exchange a b := by
  rw [execute, isExchange, first, second]
  rfl

/-- The instruction with its operands in the opposite order. -/
def mirrored (i : Instruction) : Instruction := { i with op1 := i.op2, op2 := i.op1 }

/-- An exchange is accepted in either order. -/
theorem mirrored_validated (valid : i.Validated) (isExchange : i.op = .transfer .xchg)
    (first : i.op1 = some a) (second : i.op2 = some b) : i.mirrored.Validated := by
  have kinds := valid.kinds
  have widths := valid.haveWidths (by rw [isExchange]; rfl)
  have same := valid.size_eq (by rw [isExchange]; rfl) first second
  have once := valid.memory_once first second
  obtain ⟨eip, eip'⟩ := valid.ne_eip
  rw [isExchange] at kinds
  rw [first, second] at widths
  rw [first, ne_eq, Option.some.injEq] at eip
  rw [second, ne_eq, Option.some.injEq] at eip'
  have known := Signature.ne_zero_of_isAccessSize widths.2
  have checked := Signature.validate_of_binary (s := (Operator.transfer .xchg).signature) rfl
    (kinds.2 b second) (kinds.1 a first) (by rwa [Bool.and_comm])
    (fun _ => Signature.supportedSize_of_isAccessSize widths.2)
    (fun _ _ => Signature.supportedSize_of_isAccessSize widths.1) eip' eip
  have ruled : Signature.applyBinaryRule .sameSize b a = .ok (some b, some a) := by
    rw [Signature.applyBinaryRule, if_neg (fun both => known both.1), if_neg known,
      Signature.matchSizes_eq, if_pos (.inr same.symm), ← same, Operand.withSize_size]
  refine ⟨(some b, some a), ?_⟩
  rw [mirrored, first, second, isExchange]
  exact checked.trans ruled

/-- An exchange swaps what its operands hold, if the store in the second one does not move the
first, and its operands may change places, if they do not move each other. -/
theorem exchange_swaps (valid : i.Validated) (isExchange : i.op = .transfer .xchg)
    (first : i.op1 = some a) (second : i.op2 = some b) (p : Processor δ) :
    (∀ f, p.readFault? a = some f ∨ p.readFault? b = some f → i.execute.run p = .error f p) ∧
    (p.readFault? a = none → p.readFault? b = none →
      (p.Stays a b → ∃ q, i.execute.run p = .ok () q ∧ p.Swaps a b q) ∧
      (¬ p.Stays a b → i.execute.run p =
        match (p.put b (p.valueOf a)).writeFault? a with
        | some f => .error f (p.put b (p.valueOf a))
        | none => .ok () ((p.put b (p.valueOf a)).put a (p.valueOf b)))) ∧
    i.mirrored.Validated ∧
    (p.Stays a b → p.Stays b a → i.mirrored.execute.run p = i.execute.run p) := by
  have kinds := valid.kinds
  rw [isExchange] at kinds
  have place : a.isPlace := Operand.isPlace_of_kind (kinds.1 a first)
  have place' : b.isPlace := Operand.isPlace_of_kind (kinds.2 b second)
  have same := valid.size_eq (by rw [isExchange]; rfl) first second
  have once := valid.memory_once first second
  have distinct := Operand.eq_or_apart once same
  have mirror : (i.mirrored.execute : Execution δ Unit) = Execution.exchange b a :=
    execute_of_exchange isExchange second first
  rw [mirror, execute_of_exchange isExchange first second]
  refine ⟨fun f fault => Execution.exchange_run_of_fault once fault,
    fun readable readable' => ⟨fun stays => ?_, fun _ => ?_⟩,
    mirrored_validated valid isExchange first second, fun stays stays' => ?_⟩
  · exact ⟨_, Execution.exchange_run_of_stays readable readable' stays,
      Processor.swaps_put place place' distinct same readable readable'⟩
  · exact Execution.exchange_run readable readable'
  · exact (Execution.exchange_comm distinct once stays stays').symm

/-- A register and the word that it points to are exchanged, unless the register is named second:
then it receives the word and the second store goes where the word points to. -/
theorem exchange_swaps_pointer :
    let i : Instruction :=
      { op := .transfer .xchg, op1 := some (.register .eax)
        op2 := some (.memory { base := some .eax, size := 4 }) }
    let p := ((.new 16 {} default : Processor Script).setReg .eax 1024).storeAt 1024 1028 4
    (∃ q, i.execute.run p = .ok () q ∧ q.reg .eax = 1028 ∧ q.memory.load 1024 4 = 1024) ∧
      ∃ q, i.mirrored.execute.run p = .ok () q ∧ q.reg .eax = 1028 ∧
        q.memory.load 1024 4 = 1028 ∧ q.memory.load 1028 4 = 1024 := by
  intro i p
  let m : Operand := .memory { base := some .eax, size := 4 }
  have valid : i.Validated := ⟨(i.op1, i.op2), rfl⟩
  have valid' : i.mirrored.Validated := ⟨(i.mirrored.op1, i.mirrored.op2), rfl⟩
  have start : p.valueOf (.register .eax) = 1024 ∧ p.valueOf m = 1028 := by decide +kernel
  have readable : p.readFault? m = none := by decide +kernel
  constructor
  · have stays : p.Stays (.register .eax) m := by
      intro m' same
      cases same
    obtain ⟨-, swaps, -⟩ := exchange_swaps (a := .register .eax) (b := m) valid rfl rfl rfl p
    obtain ⟨q, ran, swapped⟩ := (swaps rfl readable).1 stays
    have pinned : p.pin m = .memory { displacement := 1024, size := 4 } := by decide +kernel
    have stored : q.valueOf (p.pin m) = 1024 := swapped.second.trans start.1
    rw [pinned, Processor.valueOf, Processor.addressOf_constant] at stored
    exact ⟨q, ran, swapped.first.trans start.2, stored⟩
  · obtain ⟨-, swaps, -⟩ := exchange_swaps (a := m) valid' rfl rfl rfl p
    have moves : ¬ p.Stays m (.register .eax) := fun stays =>
      absurd (stays _ rfl) (by decide +kernel)
    have writable : (p.put (.register .eax) (p.valueOf m)).writeFault? m = none := by
      decide +kernel
    have ran := (swaps readable rfl).2 moves
    rw [writable] at ran
    exact ⟨_, ran, by decide +kernel⟩

end Instruction

end ReducedX86
