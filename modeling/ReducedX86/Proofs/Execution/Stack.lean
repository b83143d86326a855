import ReducedX86.Device.Script
import ReducedX86.Proofs.Execution.Atomicity
import ReducedX86.Proofs.Execution.Operands

/-!
The stack.

A push stores a value below `esp` and lowers `esp` to it, which does not go round the end of the
address space. So the values that were pushed are popped in the opposite order, each cut to its size, and
what lies above the old top or below the last push is left alone.

The instruction `pop` stores what it finds in its destination and then raises `esp`. A destination
that is a part of `esp` loses what it has received.
-/
namespace ReducedX86

-- Two processors are compared field by field; what stores make of memory need not be looked into.
attribute [local irreducible] RegisterFile.set Memory.store

variable {δ : Type}

namespace Processor

/-- Where a push of `size` bytes stores them. -/
def newTop (p : Processor δ) (size : Nat) : Word := p.reg .esp - UInt32.ofNat size

/-- The processor with one more value on its stack. -/
def pushed (p : Processor δ) (value : Word) (size : Nat) : Processor δ :=
  (p.storeAt (p.newTop size) value size).setReg .esp (p.newTop size)

@[simp] theorem reg_esp_pushed (p : Processor δ) (value : Word) (size : Nat) :
    (p.pushed value size).reg .esp = p.newTop size :=
  RegisterFile.get_set_whole _ rfl _

theorem newTop_add (p : Processor δ) (size : Nat) :
    p.newTop size + UInt32.ofNat size = p.reg .esp := by
  rw [newTop]
  grind

theorem read_pushed {p : Processor δ} {size : Nat} (value : Word)
    (readable : p.memory.readFault? (p.newTop size) size = none) :
    (p.pushed value size).memory.read (p.newTop size) size = .ok (value.truncate size) :=
  Memory.read_eq_ok_iff.mpr
    ⟨(Memory.readFault?_store ..).trans readable, Memory.load_store readable value⟩

end Processor

namespace Execution

variable {failed : Fault → Processor δ → Prop} {p : Processor δ}

theorem outcome_push {done : Unit → Processor δ → Prop} (value : Word) (size : Nat) :
    Outcome (push value size) done failed p ↔
      (∀ f, p.memory.writeFault? (p.newTop size) size = some f → failed f p) ∧
        (p.memory.writeFault? (p.newTop size) size = none → done () (p.pushed value size)) := by
  simp [push, Processor.newTop, Processor.pushed]

theorem push_run {value : Word} {size : Nat}
    (writable : p.memory.writeFault? (p.newTop size) size = none) :
    (push value size).run p = .ok () (p.pushed value size) := by
  apply Outcome.run_eq_ok
  simp [outcome_push, writable]

theorem outcome_pop {done : Word → Processor δ → Prop} (size : Nat) :
    Outcome (pop size) done failed p ↔
      (∀ f, p.memory.readFault? (p.reg .esp) size = some f → failed f p) ∧
        (p.memory.readFault? (p.reg .esp) size = none →
          done (p.memory.load (p.reg .esp) size)
            (p.setReg .esp (p.reg .esp + UInt32.ofNat size))) := by
  simp [pop]

theorem pop_run {value : Word} {size : Nat}
    (found : p.memory.read (p.reg .esp) size = .ok value) :
    (pop size).run p = .ok value (p.setReg .esp (p.reg .esp + UInt32.ofNat size)) := by
  obtain ⟨readable, rfl⟩ := Memory.read_eq_ok_iff.mp found
  apply Outcome.run_eq_ok
  simp [outcome_pop, readable]

/-- Pops values of the given sizes one after the other. -/
def popEach : List Nat → Execution δ (List Word)
  | [] => pure []
  | size :: rest => do
      let value ← pop size
      let values ← popEach rest
      return value :: values

theorem popEach_append {p q r : Processor δ} {sizes more : List Nat} {values values' : List Word}
    (first : (popEach sizes).run p = .ok values q) (second : (popEach more).run q = .ok values' r) :
    (popEach (sizes ++ more)).run p = .ok (values ++ values') r := by
  induction sizes generalizing p values with
  | nil =>
      cases first
      exact second
  | cons size rest ih =>
      simp only [popEach, EStateM.run_bind] at first
      cases popped : (pop size).run p with
      | error f t =>
          rw [popped] at first
          cases first
      | ok value t =>
          simp only [popped] at first
          cases others : (popEach rest).run t with
          | error f u =>
              rw [others] at first
              cases first
          | ok found u =>
              rw [others] at first
              cases first
              simp only [List.cons_append, popEach, EStateM.run_bind, popped, ih others]
              rfl

end Execution

/-! Pushes -/

namespace Instruction

variable {p q : Processor δ} {i : Instruction} {v : Word × Nat}

/-- What an instruction puts on the stack, and in how many bytes. -/
def pushed? (i : Instruction) (p : Processor δ) : Option (Word × Nat) :=
  match i.op, i.op1 with
  | .stack .push, some src => some (p.valueOf src, src.size)
  | .stack .pushfd, _ => some (p.flags.pack, 4)
  | .control .call, some _ => some (p.nextInstruction, 4)
  | _, _ => none

/-- An instruction that pushes does that, and at most jumps afterwards. -/
theorem outcome_of_pushed? [PortDevice δ] (pushes : i.pushed? p = some v) :
    Outcome i.execute
      (fun _ q => p.memory.writeFault? (p.newTop v.2) v.2 = none ∧
        ∃ next, q = (p.pushed v.1 v.2).jumpTo next)
      (fun _ _ => True) p := by
  unfold pushed? at pushes
  split at pushes
  · rename_i src isPush first
    cases pushes
    simp only [execute, isPush, first, Operator.execute, Execution.stack, outcome_bind,
      Execution.outcome_read, Execution.outcome_push]
    exact ⟨fun _ _ => trivial, fun _ => ⟨fun _ _ => trivial, fun writable =>
      ⟨writable, p.nextInstruction, rfl⟩⟩⟩
  · rename_i isPush
    cases pushes
    simp only [execute, isPush, Operator.execute, Execution.stack, outcome_bind, outcome_get,
      Execution.outcome_push]
    exact ⟨fun _ _ => trivial, fun writable => ⟨writable, p.nextInstruction, rfl⟩⟩
  · rename_i target isCall first
    cases pushes
    simp only [execute, isCall, first, Operator.execute, Execution.control, Execution.call,
      outcome_bind, outcome_get, Execution.outcome_read, Execution.outcome_push,
      Execution.outcome_jump]
    exact ⟨fun _ _ => trivial, fun _ => ⟨fun _ _ => trivial, fun writable => ⟨writable, _, rfl⟩⟩⟩
  · cases pushes

end Instruction

namespace Processor

variable {p q s : Processor δ} {v : Word × Nat} {vs : List (Word × Nat)}

/-- A value is pushed in a number of bytes, by itself or by an instruction. -/
inductive Push [PortDevice δ] (p : Processor δ) : Word × Nat → Processor δ → Prop
  | alone {value : Word} {size : Nat} {q : Processor δ}
      (ran : (Execution.push value size).run p = .ok () q) : p.Push (value, size) q
  | byInstruction {i : Instruction} {v : Word × Nat} {q : Processor δ}
      (pushes : i.pushed? p = some v) (ran : i.execute.run p = .ok () q) : p.Push v q

/-- `q` is reached from `p` by pushes of the values in turn. -/
inductive Pushes [PortDevice δ] : Processor δ → List (Word × Nat) → Processor δ → Prop
  | nil (p : Processor δ) : p.Pushes [] p
  | cons {p q r : Processor δ} {v : Word × Nat} {vs : List (Word × Nat)} (first : p.Push v q)
      (rest : q.Pushes vs r) : p.Pushes (v :: vs) r

variable [PortDevice δ]

/-- What a push does. -/
theorem Push.effect (push : p.Push v q) :
    p.memory.readFault? (p.newTop v.2) v.2 = none ∧
      ∃ next, q = (p.pushed v.1 v.2).jumpTo next := by
  cases push with
  | @alone value size q ran =>
      have ends : Outcome (Execution.push value size)
          (fun _ q => p.memory.writeFault? (p.newTop size) size = none ∧ q = p.pushed value size)
          (fun _ _ => True) p := by
        rw [Execution.outcome_push]
        exact ⟨fun _ _ => trivial, fun writable => ⟨writable, rfl⟩⟩
      obtain ⟨writable, rfl⟩ := ends.of_ok ran
      exact ⟨Memory.writeFault?_eq_none_iff.mp writable, p.nextInstruction, rfl⟩
  | byInstruction pushes ran =>
      obtain ⟨writable, jumped⟩ := (Instruction.outcome_of_pushed? pushes).of_ok ran
      exact ⟨Memory.writeFault?_eq_none_iff.mp writable, jumped⟩

theorem Push.addressable (push : p.Push v q) (addressable : p.memory.Addressable) :
    q.memory.Addressable := by
  obtain ⟨-, next, rfl⟩ := push.effect
  change Memory.base + (p.memory.store _ _ _).size < _
  rwa [Memory.size_store]

theorem Push.registers_eq (push : p.Push v q) :
    q.registers = p.registers.set .esp (q.reg .esp) ∧ q.reg .esp = p.newTop v.2 := by
  obtain ⟨-, next, rfl⟩ := push.effect
  have top : ((p.pushed v.1 v.2).jumpTo next).reg .esp = p.newTop v.2 := reg_esp_pushed ..
  exact ⟨by rw [top]; rfl, top⟩

/-- The stack grows downwards, and has not gone round the end of the address space. -/
theorem Push.esp (push : p.Push v q) (addressable : p.memory.Addressable) :
    (p.reg .esp).toNat = (q.reg .esp).toNat + v.2 := by
  obtain ⟨readable, -⟩ := push.effect
  obtain ⟨-, upper⟩ := Memory.inRange_iff.mp (Memory.readFault?_eq_none_iff.mp readable).1
  rw [push.registers_eq.2]
  exact Word.toNat_of_sub (Nat.lt_of_le_of_lt upper addressable)

theorem Push.read_eq (push : p.Push v q) (addressable : p.memory.Addressable) {address : Word}
    {size : Nat} (outside : (p.reg .esp).toNat ≤ address.toNat ∨
      address.toNat + size ≤ (q.reg .esp).toNat) :
    q.memory.read address size = p.memory.read address size := by
  have grown := push.esp addressable
  have top := push.registers_eq.2
  obtain ⟨readable, next, rfl⟩ := push.effect
  rw [top] at grown outside
  exact Memory.read_store_of_apart v.1 (Memory.readFault?_eq_none_iff.mp readable).1 (by omega)

theorem Pushes.addressable (pushes : p.Pushes vs q) (addressable : p.memory.Addressable) :
    q.memory.Addressable := by
  induction pushes with
  | nil p => exact addressable
  | cons first rest ih => exact ih (first.addressable addressable)

theorem Pushes.registers_eq (pushes : p.Pushes vs q) :
    q.registers = p.registers.set .esp (q.reg .esp) := by
  induction pushes with
  | nil p => exact (RegisterFile.set_get p.registers .esp).symm
  | cons first rest ih => rw [ih, first.registers_eq.1, RegisterFile.set_set]

theorem Pushes.esp_le (pushes : p.Pushes vs q) (addressable : p.memory.Addressable) :
    (q.reg .esp).toNat ≤ (p.reg .esp).toNat := by
  induction pushes with
  | nil p => exact Nat.le_refl _
  | cons first rest ih =>
      rw [first.esp addressable]
      exact Nat.le_add_right_of_le (ih (first.addressable addressable))

theorem Pushes.read_eq (pushes : p.Pushes vs q) (addressable : p.memory.Addressable)
    {address : Word} {size : Nat} (outside : (p.reg .esp).toNat ≤ address.toNat ∨
      address.toNat + size ≤ (q.reg .esp).toNat) :
    q.memory.read address size = p.memory.read address size := by
  induction pushes with
  | nil p => rfl
  | cons first rest ih =>
      have addressable' := first.addressable addressable
      have grown := first.esp addressable
      have more := rest.esp_le addressable'
      rw [ih addressable' (by omega), first.read_eq addressable (by omega)]

/-- A pop undoes a push, if the pushed value is still there. -/
theorem Push.undone (push : p.Push v s) (same : q.registers = s.registers)
    (found : q.memory.read (s.reg .esp) v.2 = s.memory.read (s.reg .esp) v.2) :
    (Execution.pop v.2).run q = .ok (v.1.truncate v.2) { q with registers := p.registers } := by
  obtain ⟨registers, top⟩ := push.registers_eq
  obtain ⟨readable, next, rfl⟩ := push.effect
  have same' : q.reg .esp = p.newTop v.2 := by rw [reg, same, ← reg, top]
  have back : q.registers.set .esp (p.reg .esp) = p.registers := by
    rw [same, registers, RegisterFile.set_set]
    exact RegisterFile.set_get p.registers .esp
  have popped : q.memory.read (q.reg .esp) v.2 = .ok (v.1.truncate v.2) := by
    rw [same', ← top, found, top]
    exact read_pushed v.1 readable
  rw [Execution.pop_run popped, same', newTop_add, setReg, back]

theorem Pushes.popped (pushes : p.Pushes vs q) (addressable : p.memory.Addressable) :
    (Execution.popEach (vs.reverse.map Prod.snd)).run q =
      .ok (vs.reverse.map fun v => v.1.truncate v.2) { q with registers := p.registers } := by
  induction pushes with
  | nil p => rfl
  | @cons p s q v vs first rest ih =>
      have addressable' := first.addressable addressable
      -- The first value lies at the top that the later pushes start from, so they leave it alone.
      have found : q.memory.read (s.reg .esp) v.2 = s.memory.read (s.reg .esp) v.2 :=
        rest.read_eq addressable' (.inl (Nat.le_refl _))
      have last := first.undone (q := { q with registers := s.registers }) rfl found
      rw [List.reverse_cons, List.map_append, List.map_append]
      refine Execution.popEach_append (ih addressable') ?_
      simp only [List.map_cons, List.map_nil, Execution.popEach, EStateM.run_bind, last]
      rfl

end Processor

namespace Execution

variable {p q : Processor δ} {f : Fault}

theorem push_fault {value : Word} {size : Nat} (faulted : (push value size).run p = .error f q) :
    q = p := by
  have ends : Outcome (push value size) (fun _ _ => True) (fun _ q => q = p) p := by
    rw [outcome_push]
    exact ⟨fun _ _ => rfl, fun _ => trivial⟩
  exact ends.of_error faulted

theorem pop_fault {size : Nat} (faulted : (pop size).run p = .error f q) : q = p := by
  have ends : Outcome (pop size) (fun _ _ => True) (fun _ q => q = p) p := by
    rw [outcome_pop]
    exact ⟨fun _ _ => rfl, fun _ => trivial⟩
  exact ends.of_error faulted

end Execution

theorem Instruction.stack_fault [PortDevice δ] {i : Instruction} {p q : Processor δ} {f : Fault}
    (moves : i.op ∈ [.stack .push, .stack .pop, .stack .pushfd, .stack .popfd, .control .call])
    (faulted : i.execute.run p = .error f q) : q = p := by
  simp only [List.mem_cons, List.not_mem_nil, or_false] at moves
  rw [execute] at faulted
  rcases moves with is | is | is | is | is <;> rw [is] at faulted
  · exact (Execution.stack_allOrNothing .push (i.op1, i.op2) nofun p).of_error faulted
  · exact (Execution.stack_allOrNothing .pop (i.op1, i.op2) nofun p).of_error faulted
  · exact (Execution.stack_allOrNothing .pushfd (i.op1, i.op2) nofun p).of_error faulted
  · exact (Execution.stack_allOrNothing .popfd (i.op1, i.op2) nofun p).of_error faulted
  · exact (Execution.control_allOrNothing .call (i.op1, i.op2) nofun p).of_error faulted

namespace Processor

variable [PortDevice δ] {p q s : Processor δ} {before values : List (Word × Nat)}

/-- Let `s` be any state on the way from `p` to `q` by pushes. What was pushed since comes back in the
opposite order, each value cut to its size, and the registers are as they were in `s`. Of these
only `esp` has changed since `p`, and of the memory only what is between the two tops. A push or a pop
that faults changes nothing. -/
theorem last_in_first_out (addressable : p.memory.Addressable) (below : p.Pushes before s)
    (pushes : s.Pushes values q) :
    (Execution.popEach (values.reverse.map Prod.snd)).run q =
        .ok (values.reverse.map fun v => v.1.truncate v.2) { q with registers := s.registers } ∧
      s.registers = p.registers.set .esp (s.reg .esp) ∧
      (∀ address, p.reg .esp ≤ address ∨ address < q.reg .esp →
        s.memory.read address 1 = p.memory.read address 1 ∧
        q.memory.read address 1 = p.memory.read address 1) ∧
      (∀ value size f (t u : Processor δ),
        (Execution.push value size).run t = .error f u → u = t) ∧
      (∀ size f (t u : Processor δ), (Execution.pop size).run t = .error f u → u = t) ∧
      (∀ (i : Instruction) f (t u : Processor δ),
        i.op ∈ [.stack .push, .stack .pop, .stack .pushfd, .stack .popfd, .control .call] →
        i.execute.run t = .error f u → u = t) := by
  have addressable' := below.addressable addressable
  refine ⟨pushes.popped addressable', below.registers_eq, fun address outside => ?_,
    fun _ _ _ _ _ => Execution.push_fault, fun _ _ _ _ => Execution.pop_fault,
    fun _ _ _ _ => Instruction.stack_fault⟩
  have lower := pushes.esp_le addressable'
  have upper := below.esp_le addressable
  rw [UInt32.le_iff_toNat_le, UInt32.lt_iff_toNat_lt] at outside
  have same : s.memory.read address 1 = p.memory.read address 1 :=
    below.read_eq addressable (by omega)
  exact ⟨same, (pushes.read_eq addressable' (by omega)).trans same⟩

/-- A return address, the flags and the lower half of a number come back in this order. -/
theorem last_in_first_out_call :
    let p : Processor Script :=
      ((Processor.new 64 {} default).setReg .eax 0x12345678).withFlags { carry := true }
    let save : Instruction := { op := .stack .pushfd }
    let call : Instruction := { op := .control .call, op1 := some (.label 1092) }
    ∃ r s q, (Execution.push (p.reg .eax) 2).run p = .ok () r ∧ save.execute.run r = .ok () s ∧
      call.execute.run s = .ok () q ∧
      (Execution.popEach [4, 4, 2]).run q =
        .ok [1088, 1, 0x5678] { q with registers := p.registers } := by
  intro p save call
  have addressable : p.memory.Addressable := Memory.addressable_zero (n := 64) (by decide)
  have first : (Execution.push (p.reg .eax) 2).run p = .ok () (p.pushed (p.reg .eax) 2) :=
    Execution.push_run (by decide +kernel)
  let r := p.pushed (p.reg .eax) 2
  have saves (t : Processor Script) :
      save.execute.run t = (Execution.push t.flags.pack 4).run t := by
    change (get >>= fun u => Execution.push u.flags.pack 4).run t = _
    rw [EStateM.run_bind, EStateM.run_get]
  have second : save.execute.run r = .ok () (r.pushed r.flags.pack 4) :=
    (saves r).trans (Execution.push_run (by decide +kernel))
  let s := r.pushed r.flags.pack 4
  have third : call.execute.run s = .ok () ((s.pushed s.nextInstruction 4).jumpTo 1092) := by
    have writable : s.memory.writeFault? (s.newTop 4) 4 = none := by decide +kernel
    apply Outcome.run_eq_ok
    change Outcome (Execution.call (.label 1092)) _ _ s
    simp [Execution.call, Execution.outcome_push, writable, valueOf]
  have pushes : p.Pushes [(p.reg .eax, 2), (r.flags.pack, 4), (s.nextInstruction, 4)]
      ((s.pushed s.nextInstruction 4).jumpTo 1092) :=
    .cons (.alone first) (.cons (.byInstruction rfl second)
      (.cons (.byInstruction rfl third) (.nil _)))
  have back := (last_in_first_out addressable (.nil p) pushes).1
  have values : [(p.reg .eax, 2), (r.flags.pack, 4), (s.nextInstruction, 4)].reverse.map
      (fun v => v.1.truncate v.2) = [1088, 1, 0x5678] := by decide +kernel
  rw [values] at back
  exact ⟨r, s, _, first, second, third, back⟩

end Processor

/-! The instruction `pop` -/

namespace Execution

theorem popTo_run (p : Processor δ) (r : Register) :
    (popTo (.register r)).run p =
      match p.memory.read (p.reg .esp) r.size with
      | .error f => .error f p
      | .ok value =>
          .ok () ((p.setReg r value).setReg .esp (p.reg .esp + UInt32.ofNat r.size)) := by
  rw [Memory.read]
  cases found : p.memory.readFault? (p.reg .esp) r.size with
  | none =>
      apply Outcome.run_eq_ok
      simp [popTo, Operand.size, Processor.put, found]
  | some f =>
      apply Outcome.run_eq_error
      simp [popTo, Operand.size, found]

theorem popTo_ok {p q : Processor δ} {r : Register} (ran : (popTo (.register r)).run p = .ok () q) :
    ∃ value, p.memory.read (p.reg .esp) r.size = .ok value ∧
      q = (p.setReg r value).setReg .esp (p.reg .esp + UInt32.ofNat r.size) := by
  rw [popTo_run] at ran
  cases found : p.memory.read (p.reg .esp) r.size with
  | error f =>
      rw [found] at ran
      cases ran
  | ok value =>
      rw [found] at ran
      cases ran
      exact ⟨value, rfl, rfl⟩

end Execution

namespace Instruction

variable [PortDevice δ] {i j k : Instruction} {p q before : Processor δ} {r s : Register}

theorem execute_of_pop {dst : Operand} (isPop : i.op = .stack .pop) (first : i.op1 = some dst) :
    (i.execute : Execution δ Unit) = Execution.popTo dst := by
  rw [execute, isPop, first]
  rfl

theorem move_run (isMove : k.op = .transfer .mov) (first : k.op1 = some (.register r))
    (second : k.op2 = some (.register s)) : k.execute.run p = .ok () (p.setReg r (p.reg s)) := by
  rw [execute, isMove, first, second]
  rfl

theorem push_register_run (isPush : j.op = .stack .push) (first : j.op1 = some (.register s)) :
    j.execute.run p = (Execution.push (p.reg s) s.size).run p := by
  have read : (Execution.read (.register s)).run p = .ok (p.reg s) p := rfl
  rw [execute, isPush, first]
  change (Execution.read (.register s) >>= fun value => Execution.push value s.size).run p = _
  rw [EStateM.run_bind, read]

/-- A register apart from `esp` receives the top of the stack, and `esp` is raised past it. What `esp`
itself or its lower half receives is lost: all that has changed is that `esp` is raised. So a push of
a register and a pop are a move between registers, but when they pop to `esp` or its lower half,
registers and flags are what they were before the push. -/
theorem pop_delivers (isPop : i.op = .stack .pop) (destination : i.op1 = some (.register r))
    (popped : i.execute.run p = .ok () q) :
    ∃ value, p.memory.read (p.reg .esp) r.size = .ok value ∧
      (Register.Apart .esp r →
        q.reg r = value ∧ q.reg .esp = p.reg .esp + UInt32.ofNat r.size) ∧
      (¬ Register.Apart .esp r → q = p.setReg .esp (p.reg .esp + UInt32.ofNat r.size)) ∧
      ∀ (j k : Instruction) (before : Processor δ) (s : Register), s.size = r.size →
        j.op = .stack .push → j.op1 = some (.register s) → j.execute.run before = .ok () p →
        k.op = .transfer .mov → k.op1 = some (.register r) → k.op2 = some (.register s) →
        ∃ u, k.execute.run before = .ok () u ∧ q.flags = u.flags ∧
          (Register.Apart .esp r → q.registers = u.registers) ∧
          (¬ Register.Apart .esp r → q.registers = before.registers) := by
  rw [execute_of_pop isPop destination] at popped
  obtain ⟨value, found, rfl⟩ := Execution.popTo_ok popped
  refine ⟨value, found, fun apart => ⟨?_, ?_⟩, fun meets => ?_, ?_⟩
  · obtain ⟨-, loaded⟩ := Memory.read_eq_ok_iff.mp found
    have whole : value.truncate r.size = value := by
      rw [← loaded]
      exact Bytes.truncate_load r.isAccessSize_size ..
    refine (RegisterFile.get_set_of_apart _ apart _).trans ?_
    exact (RegisterFile.get_set_self p.registers r value).trans whole
  · exact RegisterFile.get_set_whole _ rfl _
  · have part := Register.within_esp meets
    simp only [Processor.setReg, RegisterFile.set_set_of_within _ part]
  · intro j k before s same isPush source pushed isMove destination' source'
    have pushes : j.pushed? before = some (before.reg s, s.size) := by
      rw [pushed?, isPush, source]
      rfl
    obtain ⟨writable, next, rfl⟩ :
        before.memory.writeFault? (before.newTop s.size) s.size = none ∧
          ∃ next, p = (before.pushed (before.reg s) s.size).jumpTo next :=
      (outcome_of_pushed? pushes).of_ok pushed
    have readable := Memory.writeFault?_eq_none_iff.mp writable
    have top : ((before.pushed (before.reg s) s.size).jumpTo next).reg .esp = before.newTop s.size :=
      Processor.reg_esp_pushed ..
    rw [top, ← same] at found
    have moved : value = before.reg s := by
      have stored := Processor.read_pushed (before.reg s) readable
      have whole : (before.reg s).truncate s.size = before.reg s :=
        Processor.truncate_valueOf (o := .register s) s.isAccessSize_size
      rw [whole] at stored
      exact Except.ok.inj (found.symm.trans stored)
    refine ⟨_, move_run isMove destination' source', rfl, fun apart => ?_, fun meets => ?_⟩
    -- `esp` gets back what it held before the push; it depends on `r` what this covers.
    all_goals rw [top, ← same, Processor.newTop_add, moved]
    · exact RegisterFile.set_restored_of_apart _ apart ..
    · exact RegisterFile.set_restored_of_within _ (Register.within_esp meets) ..

/-- The pushed 7 is popped to `ebx`, but not to `esp`, which has its old value afterwards. -/
theorem pop_delivers_seven :
    let before : Processor Script := (Processor.new 64 {} default).setReg .eax 7
    let push : Instruction := { op := .stack .push, op1 := some (.register .eax) }
    let pop (r : Register) : Instruction := { op := .stack .pop, op1 := some (.register r) }
    ∃ p, push.execute.run before = .ok () p ∧
      (∃ q, (pop .ebx).execute.run p = .ok () q ∧ q.reg .ebx = 7 ∧ q.reg .esp = 1088) ∧
      ∃ q, (pop .esp).execute.run p = .ok () q ∧ q.reg .esp = 1088 := by
  intro before push pop
  let p := before.pushed (before.reg .eax) 4
  have pushed : push.execute.run before = .ok () p :=
    (push_register_run rfl rfl).trans (Execution.push_run (by decide +kernel))
  have top : p.memory.read (p.reg .esp) 4 = .ok 7 := by decide +kernel
  have ends (r : Register) (whole : r.size = 4) : ∃ q, (pop r).execute.run p = .ok () q := by
    rw [execute_of_pop (i := pop r) rfl rfl, Execution.popTo_run, whole, top]
    exact ⟨_, rfl⟩
  have raised : p.reg .esp + 4 = 1088 := by decide +kernel
  obtain ⟨q, ran⟩ := ends .ebx rfl
  obtain ⟨t, ran'⟩ := ends .esp rfl
  obtain ⟨value, found, delivered, -, -⟩ := pop_delivers rfl rfl ran
  obtain ⟨-, -, -, lost, -⟩ := pop_delivers rfl rfl ran'
  obtain ⟨received, moved⟩ := delivered (by decide)
  refine ⟨p, pushed, ⟨q, ran, ?_, moved.trans raised⟩, t, ran', ?_⟩
  · exact received.trans (Except.ok.inj (found.symm.trans top))
  · rw [lost (by decide)]
    exact (RegisterFile.get_set_whole _ rfl _).trans raised

end Instruction

end ReducedX86
