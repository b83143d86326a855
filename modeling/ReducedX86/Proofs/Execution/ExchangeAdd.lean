import ReducedX86.Proofs.Execution.Addition
import ReducedX86.Proofs.Execution.Exchange

/-!
Exchange and addition in one instruction.

The sum is stored before the source receives what the destination held, so a source that is part of
the destination's address does not move the sum. Destination and source then hold what they should,
unless they are one register: there the second store takes the place of the sum. The register keeps
its value in the end, and the flags describe a sum that is nowhere.
-/
namespace ReducedX86

namespace Processor

variable {δ : Type} {p : Processor δ} {a b : Operand} {r : Register}

theorem pin_of_register (p : Processor δ) (r : Register) : p.pin (.register r) = .register r := rfl

/-- The sum of what two operands hold, which need not fit their width. -/
def sumOf (p : Processor δ) (a b : Operand) : Nat := (p.valueOf a).toNat + (p.valueOf b).toNat

/-- The processor with the sum of `a` and `b` stored in `a`, and then what `a` held in `b`. -/
def exchangeSum (p : Processor δ) (a b : Operand) : Processor δ :=
  ((p.put a (UInt32.ofNat (p.sumOf a b))).put b (p.valueOf a)).withFlags
    (p.flags.afterAdd (p.valueOf a) (p.valueOf b) (p.sumOf a b) a.size)

/-- The flags `g` describe the sum of `a` and `b`, whose low bytes are the word `r`. -/
structure DescribesSum (a b : Operand) (p : Processor δ) (r : Word) (g : Flags) : Prop where
  word : r.toNat = p.sumOf a b % Word.modulus a.size
  carry : g.carry ↔ ¬ Word.FitsUnsigned (p.sumOf a b) a.size
  describes : g.Describes r ((p.valueOf a).signed a.size + (p.valueOf b).signed a.size) a.size
  direction : g.direction = p.flags.direction
  interrupt : g.interrupt = p.flags.interrupt

theorem describesSum_afterAdd (access : Memory.isAccessSize a.size) (same : a.size = b.size) :
    p.DescribesSum a b (Word.truncate (UInt32.ofNat (p.sumOf a b)) a.size)
      (p.flags.afterAdd (p.valueOf a) (p.valueOf b) (p.sumOf a b) a.size) := by
  have yields := ArithmeticOp.yields_add p.flags (toNat_valueOf_lt (p := p) access)
    (same ▸ toNat_valueOf_lt (p := p) (same ▸ access))
  exact
    { word := Word.toNat_truncate_ofNat ..
      carry := by
        simpa [ArithmeticOp.unsignedResult, ArithmeticOp.result, sumOf] using yields.carry rfl
      describes := yields.describes
      direction := yields.direction
      interrupt := yields.interrupt }

/-- `q` is `p` with the sum of `a` and `b` where `a` was, what `a` held in `b`, and flags that
describe what is left in `a`. -/
structure ExchangesSum (a b : Operand) (p q : Processor δ) : Prop where
  old : q.valueOf b = p.valueOf a
  describes : p.DescribesSum a b (q.valueOf (p.pin a)) q.flags
  elsewhere : q = ((p.put a (q.valueOf (p.pin a))).put b (q.valueOf b)).withFlags q.flags

section ExchangeSum

variable (readable : p.readFault? a = none)

include readable

/-- What is left at the address that `a` had is the sum, and `b` has what `a` held. -/
theorem valueOf_exchangeSum (place : a.isPlace) (apart : a.Apart (.register r))
    (same : a.size = r.size) :
    (p.exchangeSum a (.register r)).valueOf (p.pin a) =
        Word.truncate (UInt32.ofNat (p.sumOf a (.register r))) a.size ∧
      (p.exchangeSum a (.register r)).reg r = p.valueOf a := by
  have whole : (p.valueOf a).truncate r.size = p.valueOf a :=
    same ▸ truncate_valueOf (isAccessSize_of_readable place readable)
  constructor
  · -- The stores are apart, so the one of the sum may as well be the last.
    have order := put_comm_of_apart (p := p) (q := p) apart
      (UInt32.ofNat (p.sumOf a (.register r))) (p.valueOf a)
    rw [put_pin, pin_of_register] at order
    have readable' := (readFault?_put_pin p a (.register r) (p.valueOf a)).trans readable
    rw [exchangeSum, valueOf_withFlags, order,
      valueOf_put ((isPlace_pin p a).trans place) readable', size_pin]
  · exact (RegisterFile.get_set_self _ r _).trans whole

theorem exchangesSum_of_apart (place : a.isPlace) (apart : a.Apart (.register r))
    (same : a.size = r.size) : p.ExchangesSum a (.register r) (p.exchangeSum a (.register r)) := by
  obtain ⟨sum, old⟩ := valueOf_exchangeSum readable place apart same
  have access := isAccessSize_of_readable place readable
  refine ⟨old, ?_, ?_⟩
  · rw [sum]
    exact describesSum_afterAdd access same
  · have kept : (p.exchangeSum a (.register r)).valueOf (.register r) = p.valueOf a := old
    rw [sum, kept, put_truncate place readable]
    rfl

/-- One register keeps its value. -/
theorem exchangeSum_self : p.exchangeSum a a =
    p.withFlags (p.flags.afterAdd (p.valueOf a) (p.valueOf a) (p.sumOf a a) a.size) := by
  rw [exchangeSum, put_put, put_valueOf readable]

end ExchangeSum

end Processor

namespace Execution

variable {δ : Type} {p : Processor δ} {a : Operand} {r : Register}

theorem exchangeAdd_run (readable : p.readFault? a = none) :
    (exchangeAdd a (.register r)).run p = .ok () (p.exchangeSum a (.register r)) := by
  have writable := Processor.writeFault?_of_readFault? readable
  apply Outcome.run_eq_ok
  simp_all [exchangeAdd, Processor.exchangeSum, Processor.sumOf, Processor.valueOf]

theorem exchangeAdd_run_of_fault {f : Fault} (fault : p.readFault? a = some f) :
    (exchangeAdd a (.register r)).run p = .error f p := by
  apply Outcome.run_eq_error
  simp [exchangeAdd, fault]

end Execution

namespace Instruction

variable {δ : Type} [PortDevice δ] {i : Instruction} {a b : Operand}

theorem execute_of_exchangeAdd (isExchangeAdd : i.op = .transfer .xadd) (first : i.op1 = some a)
    (second : i.op2 = some b) : (i.execute : Execution δ Unit) = Execution.exchangeAdd a b := by
  rw [execute, isExchangeAdd, first, second]
  rfl

/-- An exchange and addition whose destination can be read leaves the sum there and the old value in
the source. A register that is named twice keeps its value, and the flags describe the sum. -/
theorem exchangeAdd_leaves_sum (valid : i.Validated) (isExchangeAdd : i.op = .transfer .xadd)
    (first : i.op1 = some a) (second : i.op2 = some b) (p : Processor δ) :
    (∀ f, p.readFault? a = some f → i.execute.run p = .error f p) ∧
    (p.readFault? a = none → ∃ q, i.execute.run p = .ok () q ∧
      (a ≠ b → p.ExchangesSum a b q) ∧
      (a = b → q = p.withFlags q.flags ∧ ∃ sum, p.DescribesSum a b sum q.flags)) := by
  have kinds := valid.kinds
  rw [isExchangeAdd] at kinds
  have place : a.isPlace := Operand.isPlace_of_kind (kinds.1 a first)
  obtain ⟨r, rfl⟩ := Operand.eq_register_of_kind (List.mem_singleton.mp (kinds.2 b second))
  have same := valid.size_eq (by rw [isExchangeAdd]; rfl) first second
  have distinct := Operand.eq_or_apart (valid.memory_once first second) same
  rw [execute_of_exchangeAdd isExchangeAdd first second]
  refine ⟨fun f fault => Execution.exchangeAdd_run_of_fault fault, fun readable =>
    ⟨_, Execution.exchangeAdd_run readable, fun different => ?_, ?_⟩⟩
  · exact Processor.exchangesSum_of_apart readable place (distinct.resolve_left different) same
  · rintro rfl
    have access := r.isAccessSize_size
    exact ⟨Processor.exchangeSum_self readable, _, Processor.describesSum_afterAdd access rfl⟩

/-- The word that `eax` points to receives the sum also when `eax` is the source, but `eax` does not
when it is source and destination. -/
theorem exchangeAdd_leaves_sum_eax :
    let i (a : Operand) : Instruction :=
      { op := .transfer .xadd, op1 := some a, op2 := some (.register .eax) }
    let p := ((.new 16 {} default : Processor Script).setReg .eax 1024).storeAt 1024 5 4
    (∃ q, (i (.memory { base := some .eax, size := 4 })).execute.run p = .ok () q ∧
      q.memory.load 1024 4 = 1029 ∧ q.reg .eax = 5) ∧
    ∃ q, (i (.register .eax)).execute.run p = .ok () q ∧ q.reg .eax = 1024 := by
  intro i p
  let m : Operand := .memory { base := some .eax, size := 4 }
  have valid : (i m).Validated := ⟨((i m).op1, (i m).op2), rfl⟩
  have valid' : (i (.register .eax)).Validated :=
    ⟨((i (.register .eax)).op1, some (.register .eax)), rfl⟩
  have readable : p.readFault? m = none := by decide +kernel
  have start : p.valueOf m = 5 ∧ p.sumOf m (.register .eax) = 1029 ∧ p.reg .eax = 1024 := by
    decide +kernel
  constructor
  · obtain ⟨q, ran, apart, -⟩ := (exchangeAdd_leaves_sum valid rfl rfl rfl p).2 readable
    have sums := apart nofun
    have pinned : p.pin m = .memory { displacement := 1024, size := 4 } := by decide +kernel
    have sum := sums.describes.word
    rw [pinned, Processor.valueOf, Processor.addressOf_constant, start.2.1] at sum
    exact ⟨q, ran, UInt32.toNat_inj.mp sum, sums.old.trans start.1⟩
  · obtain ⟨q, ran, -, self⟩ := (exchangeAdd_leaves_sum valid' rfl rfl rfl p).2 rfl
    refine ⟨q, ran, ?_⟩
    rw [(self rfl).1]
    exact start.2.2

end Instruction

end ReducedX86
