import ReducedX86.Device.Script
import ReducedX86.Proofs.Execution.Words

/-!
Blocks of registers in memory.

A block is a run of words. It is stored from its lower end as far as there is room, so a block that
does not fit may leave a part of itself behind: for `pushad` all words in front of the limit, for
`xsave` the first word, as it tries the last word next. What a whole block holds comes back when it
is restored, from whatever operand then names its address.
-/
namespace ReducedX86

-- Two processors are compared field by field; what stores make of memory need not be looked into.
attribute [local irreducible] RegisterFile.set Memory.store

variable {δ : Type}

namespace Memory

variable {m : Memory} {address : Word}

theorem readFault?_four_iff : m.readFault? address 4 = none ↔ 4 ≤ m.room address := by
  rw [readFault?_eq_none_iff, inRange_iff_room (by decide)]
  exact and_iff_left rfl

/-- A word without room for its four bytes cannot be written. -/
theorem writeFault?_four (short : ¬ 4 ≤ m.room address) :
    m.writeFault? address 4 = some (.invalidWriteAddress address) := by
  have outside : m.inRange address 4 = false :=
    Bool.eq_false_iff.mpr fun inside => short ((inRange_iff_room (by decide)).mp inside)
  rw [writeFault?, outside]
  rfl

end Memory

namespace Execution

variable {p q : Processor δ} {address : Word}

theorem reg_run (r : Register) : (reg r).run p = .ok (p.reg r) p := rfl

theorem writeMemory_run (address value : Word) (size : Nat) :
    (writeMemory address value size).run p =
      match p.memory.writeFault? address size with
      | some fault => .error fault p
      | none => .ok () (p.storeAt address value size) := rfl

theorem writeRegisters_cons_run (r : Register) (rest : List Register) :
    (writeRegisters address (r :: rest)).run p =
      match p.memory.writeFault? address 4 with
      | some fault => .error fault p
      | none => (writeRegisters (address + 4) rest).run (p.storeAt address (p.reg r) 4) := by
  simp only [writeRegisters, EStateM.run_bind, reg_run, writeMemory_run]
  cases p.memory.writeFault? address 4 <;> rfl

theorem writeRegisters_ok {rs : List Register} (ran : (writeRegisters address rs).run p = .ok () q) :
    p.wordsFault? address rs.length = none ∧ q = p.storeWords address (rs.map p.reg) := by
  induction rs generalizing p address with
  | nil =>
      cases ran
      exact ⟨rfl, rfl⟩
  | cons r rest ih =>
      rw [writeRegisters_cons_run] at ran
      cases fault : p.memory.writeFault? address 4 with
      | some f =>
          rw [fault] at ran
          cases ran
      | none =>
          rw [fault] at ran
          obtain ⟨behind, rfl⟩ := ih ran
          rw [Processor.wordsFault?_storeAt] at behind
          exact ⟨Processor.wordsFault?_succ_eq_none_iff.mpr
            ⟨Memory.writeFault?_eq_none_iff.mp fault, behind⟩, rfl⟩

theorem pushAll_run_eq :
    pushAll.run p =
      match (writeRegisters (p.reg .esp - 32) stackBlock).run p with
      | .error fault q => .error fault q
      | .ok _ q => .ok () (q.setReg .esp (p.reg .esp - 32)) := by
  simp only [pushAll, EStateM.run_bind, reg_run]
  cases (writeRegisters (p.reg .esp - 32) stackBlock).run p <;> rfl

theorem saveState_run_eq (m : MemoryOperand) :
    (saveState m).run p =
      match p.memory.writeFault? (p.addressOf m) 4 with
      | some fault => .error fault p
      | none =>
          match p.memory.writeFault? (p.addressOf m + 32) 4 with
          | some fault => .error fault (p.storeAt (p.addressOf m) (p.reg .eax) 4)
          | none => (writeRegisters (p.addressOf m + 4) stateBlock.tail).run
              ((p.storeAt (p.addressOf m) (p.reg .eax) 4).storeAt (p.addressOf m + 32)
                p.flags.pack 4) := by
  simp only [saveState, EStateM.run_bind, EStateM.run_get, reg_run, writeMemory_run]
  cases p.memory.writeFault? (p.addressOf m) 4 with
  | some fault => rfl
  | none =>
      have same : (p.storeAt (p.addressOf m) (p.reg .eax) 4).memory.writeFault?
          (p.addressOf m + 32) 4 = p.memory.writeFault? (p.addressOf m + 32) 4 :=
        Memory.writeFault?_store ..
      simp only [same]
      cases p.memory.writeFault? (p.addressOf m + 32) 4 <;> rfl

end Execution

namespace Processor

/-- The words of a `pushad` block. -/
def stackWords (p : Processor δ) : List Word := Execution.stackBlock.map p.reg

/-- The words of an `xsave` block. -/
def stateWords (p : Processor δ) : List Word := Execution.stateBlock.map p.reg ++ [p.flags.pack]

end Processor

namespace Instruction

variable [PortDevice δ] {i : Instruction} {m : MemoryOperand}

theorem execute_of_pushad (isPush : i.op = .stack .pushad) :
    (i.execute : Execution δ Unit) = Execution.pushAll := by
  rw [execute, isPush]
  rfl

theorem execute_of_popad (isPop : i.op = .stack .popad) :
    (i.execute : Execution δ Unit) = Execution.popAll := by
  rw [execute, isPop]
  rfl

theorem execute_of_xsave (isSave : i.op = .system .xsave) (block : i.op1 = some (.memory m)) :
    (i.execute : Execution δ Unit) = Execution.saveState m := by
  rw [execute, isSave, block]
  rfl

theorem execute_of_xrstor (isRestore : i.op = .system .xrstor) (block : i.op1 = some (.memory m)) :
    (i.execute : Execution δ Unit) = Execution.restoreState m := by
  rw [execute, isRestore, block]
  rfl

end Instruction

namespace Execution

variable {p q : Processor δ}

theorem pushAll_ok (ran : pushAll.run p = .ok () q) :
    p.wordsFault? (p.reg .esp - 32) 8 = none ∧
      q = (p.storeWords (p.reg .esp - 32) p.stackWords).setReg .esp (p.reg .esp - 32) := by
  rw [pushAll_run_eq] at ran
  cases wrote : (writeRegisters (p.reg .esp - 32) stackBlock).run p with
  | error f r =>
      rw [wrote] at ran
      cases ran
  | ok u r =>
      rw [wrote] at ran
      cases ran
      obtain ⟨readable, rfl⟩ := writeRegisters_ok wrote
      exact ⟨readable, rfl⟩

/-- Though the flags are written before most of it, the block is a run of words. -/
theorem saveState_ok {m : MemoryOperand} (ran : (saveState m).run p = .ok () q) :
    p.wordsFault? (p.addressOf m) 9 = none ∧ q = p.storeWords (p.addressOf m) p.stateWords := by
  rw [saveState_run_eq] at ran
  cases first : p.memory.writeFault? (p.addressOf m) 4 with
  | some f =>
      rw [first] at ran
      cases ran
  | none =>
      cases last : p.memory.writeFault? (p.addressOf m + 32) 4 with
      | some f =>
          rw [first, last] at ran
          cases ran
      | none =>
          rw [first, last] at ran
          rw [Memory.writeFault?_eq_none_iff] at first last
          obtain ⟨middle, rfl⟩ := writeRegisters_ok ran
          simp only [Processor.wordsFault?_storeAt] at middle
          have whole : p.wordsFault? (p.addressOf m) (7 + 2) = none := by
            rw [Processor.wordsFault?_succ_eq_none_iff, Processor.wordsFault?_add_eq_none_iff 7 1,
              Word.add_words_succ]
            exact ⟨first, middle, Processor.wordsFault?_succ_eq_none_iff.mpr ⟨last, rfl⟩⟩
          exact ⟨whole, Processor.storeWords_ends (stateBlock.tail.map p.reg) whole⟩

/-! Blocks that do not fit -/

/-- Registers are written as far as there is room; the first one that does not fit is the fault. -/
theorem writeRegisters_run (addressable : p.memory.Addressable) (address : Word)
    (rs : List Register) :
    (writeRegisters address rs).run p =
      if 4 * rs.length ≤ p.memory.room address then .ok () (p.storeWords address (rs.map p.reg))
      else .error (.invalidWriteAddress (address + 4 * UInt32.ofNat (p.memory.room address / 4)))
        (p.storeWords address ((rs.map p.reg).take (p.memory.room address / 4))) := by
  induction rs generalizing p address with
  | nil => rfl
  | cons r rest ih =>
      rw [writeRegisters_cons_run]
      -- Behind a word that fits there are four bytes less, and one word less to be counted.
      by_cases fits : 4 ≤ p.memory.room address
      · have writable : p.memory.writeFault? address 4 = none :=
          Memory.writeFault?_eq_none_iff.mpr (Memory.readFault?_four_iff.mpr fits)
        have behind : (p.storeAt address (p.reg r) 4).memory.room (address + 4) =
            p.memory.room address - 4 :=
          (Memory.room_store ..).trans (Memory.room_add addressable (by omega) (by decide))
        have addressable' : (p.storeAt address (p.reg r) 4).memory.Addressable := by
          rwa [Processor.storeAt, Memory.Addressable, Memory.size_store]
        have more : p.memory.room address / 4 = (p.memory.room address - 4) / 4 + 1 := by omega
        rw [writable]
        simp only [ih addressable', behind, more, Word.add_words_succ, List.length_cons,
          List.map_cons, List.take_succ_cons, Processor.storeWords_cons]
        by_cases room : 4 * rest.length ≤ p.memory.room address - 4
        · rw [if_pos room, if_pos (by omega)]
          rfl
        · rw [if_neg room, if_neg (by omega)]
          rfl
      · have nothing : p.memory.room address / 4 = 0 := by omega
        rw [Memory.writeFault?_four fits, if_neg (by rw [List.length_cons]; omega), nothing]
        simp [Processor.storeWords]

theorem pushAll_run (addressable : p.memory.Addressable) :
    pushAll.run p =
      if p.memory.inRange (p.reg .esp - 32) 32 then
        .ok () ((p.storeWords (p.reg .esp - 32) p.stackWords).setReg .esp (p.reg .esp - 32))
      else
        .error
          (.invalidWriteAddress
            (p.reg .esp - 32 + 4 * UInt32.ofNat (p.memory.room (p.reg .esp - 32) / 4)))
          (p.storeWords (p.reg .esp - 32)
            (p.stackWords.take (p.memory.room (p.reg .esp - 32) / 4))) := by
  have whole : 4 * stackBlock.length = 32 := rfl
  simp only [pushAll_run_eq, writeRegisters_run addressable, whole,
    Memory.inRange_iff_room (show 0 < 32 by decide)]
  by_cases room : 32 ≤ p.memory.room (p.reg .esp - 32)
  · rw [if_pos room, if_pos room]
    rfl
  · rw [if_neg room, if_neg room]
    rfl

/-- The first word is written before the last one is found not to fit. -/
theorem saveState_run (addressable : p.memory.Addressable) (m : MemoryOperand) :
    (saveState m).run p =
      if p.memory.inRange (p.addressOf m) 36 then .ok () (p.storeWords (p.addressOf m) p.stateWords)
      else if p.memory.inRange (p.addressOf m) 4 then
        .error (.invalidWriteAddress (p.addressOf m + 32)) (p.storeAt (p.addressOf m) (p.reg .eax) 4)
      else .error (.invalidWriteAddress (p.addressOf m)) p := by
  simp only [Memory.inRange_iff_room (show 0 < 36 by decide),
    Memory.inRange_iff_room (show 0 < 4 by decide)]
  by_cases first : 4 ≤ p.memory.room (p.addressOf m)
  · have writable : p.memory.writeFault? (p.addressOf m) 4 = none :=
      Memory.writeFault?_eq_none_iff.mpr (Memory.readFault?_four_iff.mpr first)
    have last : p.memory.room (p.addressOf m + 32) = p.memory.room (p.addressOf m) - 32 :=
      Memory.room_add addressable (by omega) (by decide)
    by_cases whole : 36 ≤ p.memory.room (p.addressOf m)
    · have writable' : p.memory.writeFault? (p.addressOf m + 32) 4 = none :=
        Memory.writeFault?_eq_none_iff.mpr (Memory.readFault?_four_iff.mpr (by omega))
      have second : p.memory.room (p.addressOf m + 4) = p.memory.room (p.addressOf m) - 4 :=
        Memory.room_add addressable (by omega) (by decide)
      have stored : ∃ q, (saveState m).run p = .ok () q := by
        rw [saveState_run_eq, writable, writable']
        refine ⟨_, (writeRegisters_run ?_ ..).trans (if_pos ?_)⟩
        · simpa only [Processor.storeAt, Memory.Addressable, Memory.size_store] using addressable
        · simp only [Processor.storeAt, Memory.room_store, second]
          change 28 ≤ _
          omega
      obtain ⟨q, ran⟩ := stored
      rw [if_pos whole, ran, (saveState_ok ran).2]
    · have missing : p.memory.writeFault? (p.addressOf m + 32) 4 =
          some (.invalidWriteAddress (p.addressOf m + 32)) :=
        Memory.writeFault?_four (by omega)
      rw [if_neg whole, if_pos first, saveState_run_eq, writable, missing]
  · rw [if_neg (by omega), if_neg first, saveState_run_eq, Memory.writeFault?_four first]

end Execution

namespace Instruction

variable [PortDevice δ] {i : Instruction} {p : Processor δ}

/-- A block that fits is stored, and one that does not is a fault, which leaves registers and flags
alone. It finds the memory as it was if not even the lowest word fits. Else `pushad` has stored the
words in front of the limit, and `xsave` the lowest one. -/
theorem block_stored_up_to_limit (addressable : p.memory.Addressable) :
    (i.op = .stack .pushad →
      let bottom := p.reg .esp - 32
      let fitting := p.memory.room bottom / 4
      i.execute.run p =
        if p.memory.inRange bottom 32 then
          .ok () ((p.storeWords bottom p.stackWords).setReg .esp bottom)
        else
          .error (.invalidWriteAddress (bottom + 4 * UInt32.ofNat fitting))
            (p.storeWords bottom (p.stackWords.take fitting))) ∧
    (∀ m, i.op = .system .xsave → i.op1 = some (.memory m) →
      let base := p.addressOf m
      i.execute.run p =
        if p.memory.inRange base 36 then .ok () (p.storeWords base p.stateWords)
        else if p.memory.inRange base 4 then
          .error (.invalidWriteAddress (base + 32)) (p.storeAt base (p.reg .eax) 4)
        else .error (.invalidWriteAddress base) p) ∧
    (i.op = .stack .pushad ∨ (∃ m, i.op = .system .xsave ∧ i.op1 = some (.memory m)) →
      ∀ f q, i.execute.run p = .error f q → q = { p with memory := q.memory }) := by
  refine ⟨fun isPush => ?_, fun m isSave block => ?_, ?_⟩
  · rw [execute_of_pushad isPush]
    exact Execution.pushAll_run addressable
  · rw [execute_of_xsave isSave block]
    exact Execution.saveState_run addressable m
  · rintro (isPush | ⟨m, isSave, block⟩) f q faulted
    · rw [execute_of_pushad isPush, Execution.pushAll_run addressable] at faulted
      split at faulted
      · cases faulted
      · cases faulted
        exact Processor.storeWords_memory ..
    · rw [execute_of_xsave isSave block, Execution.saveState_run addressable] at faulted
      split at faulted
      · cases faulted
      · split at faulted <;> cases faulted <;> rfl

/-- With 64 bytes of memory, which end at 1088, a stack block that begins at 1060 leaves `edi` there and
a state block that begins at 1084 leaves `eax`, though neither fits. -/
theorem block_stored_up_to_limit_partly :
    let p : Processor Script := ((Processor.new 64 {} default).setReg .eax 2).setReg .edi 3
    let high := p.setReg .esp 1092
    let push : Instruction := { op := .stack .pushad }
    let save : Instruction :=
      { op := .system .xsave, op1 := some (.memory { displacement := 1084 }) }
    (∃ q, push.execute.run high = .error (.invalidWriteAddress 1088) q ∧
      high.memory.load 1060 4 = 0 ∧ q.memory.load 1060 4 = 3) ∧
    (∃ q, save.execute.run p = .error (.invalidWriteAddress 1116) q ∧
      p.memory.load 1084 4 = 0 ∧ q.memory.load 1084 4 = 2) := by
  intro p high push save
  have addressable : p.memory.Addressable := Memory.addressable_zero (n := 64) (by decide)
  have pushed := ((block_stored_up_to_limit (i := push) (p := high) addressable).1 rfl).trans
    (if_neg (by decide +kernel))
  have saved := ((block_stored_up_to_limit (i := save) addressable).2.1 _ rfl rfl).trans
    ((if_neg (by decide +kernel)).trans (if_pos (by decide +kernel)))
  have limit : high.reg .esp - 32 + 4 * UInt32.ofNat (high.memory.room (high.reg .esp - 32) / 4) =
      1088 := by decide +kernel
  have last : p.addressOf { displacement := 1084 } + 32 = 1116 := by decide +kernel
  rw [limit] at pushed
  rw [last] at saved
  refine ⟨⟨_, pushed, ?_, ?_⟩, _, saved, ?_, ?_⟩
  all_goals decide +kernel

end Instruction

/-! The way back -/

namespace Processor

variable {p q : Processor δ}

theorem reg_setRegisters_of_apart {values : List (Register × Word)} {r : Register}
    (apart : ∀ s ∈ values.map Prod.fst, s.Apart r) :
    (p.setRegisters values).reg r = p.reg r := by
  induction values generalizing p with
  | nil => rfl
  | cons value rest ih =>
      have others := ih (p := p.setReg value.1 value.2)
        fun s later => apart s (List.mem_cons_of_mem _ later)
      exact others.trans
        (RegisterFile.get_set_of_apart p.registers (apart value.1 List.mem_cons_self) value.2)

/-- Of registers that are apart each receives its value. -/
theorem reg_setRegisters {values : List (Register × Word)} {r : Register} {value : Word}
    (apart : (values.map Prod.fst).Pairwise Register.Apart) (member : (r, value) ∈ values) :
    (p.setRegisters values).reg r = value.truncate r.size := by
  induction values generalizing p with
  | nil => cases member
  | cons first rest ih =>
      obtain ⟨others, apart⟩ := List.pairwise_cons.mp apart
      rcases List.mem_cons.mp member with rfl | later
      · have kept := reg_setRegisters_of_apart (p := p.setReg r value)
          fun s among => (others s among).symm
        exact kept.trans (RegisterFile.get_set_self p.registers r value)
      · exact ih apart later

/-- Registers that are set to what `q` holds in them hold it. -/
theorem reg_setRegisters_map {rs : List Register} {r : Register} (apart : rs.Pairwise Register.Apart)
    (member : r ∈ rs) : (p.setRegisters (rs.map fun s => (s, q.reg s))).reg r = q.reg r := by
  have names : (rs.map fun s => (s, q.reg s)).map Prod.fst = rs := by
    simp [Function.comp_def]
  rw [reg_setRegisters (by rwa [names]) (List.mem_map.mpr ⟨r, member, rfl⟩)]
  exact truncate_valueOf (o := .register r) r.isAccessSize_size

theorem setRegisters_registers (values : List (Register × Word)) :
    p.setRegisters values = { p with registers := (p.setRegisters values).registers } := by
  induction values generalizing p with
  | nil => rfl
  | cons value rest ih => exact ih (p := p.setReg value.1 value.2)

/-- `t` has the general registers of `p`, and is like `s` but for these and the flags. -/
structure Recovers (p s t : Processor δ) : Prop where
  general : ∀ r ∈ Register.owners, r ≠ .eip → t.reg r = p.reg r
  eip : t.reg .eip = s.reg .eip
  elsewhere : t = { s with registers := t.registers, flags := t.flags }

end Processor

namespace Execution

variable {p s : Processor δ}

theorem popAll_run (readable : s.wordsFault? (s.reg .esp) 8 = none) :
    popAll.run s = .ok ()
      ((s.setRegisters ((stackBlock.zip (s.wordsAt (s.reg .esp) 8)).filter (·.1 ≠ .esp))).setReg .esp
        (s.reg .esp + 32)) := by
  apply Outcome.run_eq_ok
  simp [popAll, readable]

theorem restoreState_run {m : MemoryOperand} (readable : s.wordsFault? (s.addressOf m) 8 = none)
    (readable' : s.memory.readFault? (s.addressOf m + 32) 4 = none) :
    (restoreState m).run s = .ok ()
      ((s.setRegisters (stateBlock.zip (s.wordsAt (s.addressOf m) 8))).withFlags
        (Flags.unpack (s.memory.load (s.addressOf m + 32) 4))) := by
  apply Outcome.run_eq_ok
  simp [restoreState, readable, readable']

theorem popAll_recovers (readable : s.wordsFault? (s.reg .esp) 8 = none)
    (found : s.wordsAt (s.reg .esp) 8 = p.stackWords) (lowered : s.reg .esp = p.reg .esp - 32) :
    ∃ t, popAll.run s = .ok () t ∧ p.Recovers s t ∧ t.flags = s.flags := by
  have values : (stackBlock.zip p.stackWords).filter (·.1 ≠ .esp) =
      (stackBlock.filter (· ≠ .esp)).map fun r => (r, p.reg r) := rfl
  have apart : (stackBlock.filter (· ≠ .esp)).Pairwise Register.Apart := by decide
  have general : ∀ r ∈ Register.owners, r ≠ .eip → r = .esp ∨
      r ∈ stackBlock.filter (· ≠ .esp) ∧ Register.Apart .esp r := by decide
  have others : ∀ r ∈ stackBlock.filter (· ≠ .esp), r.Apart .eip := by decide
  have ran := popAll_run readable
  rw [found, values] at ran
  refine ⟨_, ran, ⟨fun r member other => ?_, ?_, ?_⟩, ?_⟩
  · rcases general r member other with rfl | ⟨among, beside⟩
    · have raised : s.reg .esp + 32 = p.reg .esp := by
        rw [lowered]
        grind
      rw [raised]
      exact RegisterFile.get_set_whole _ rfl _
    · exact (RegisterFile.get_set_of_apart _ beside _).trans
        (Processor.reg_setRegisters_map apart among)
  · refine (RegisterFile.get_set_of_apart _ (by decide) _).trans
      (Processor.reg_setRegisters_of_apart fun r among => ?_)
    rw [List.map_map] at among
    exact others r (by simpa using among)
  · rw [Processor.setRegisters_registers]
    rfl
  · rw [Processor.setRegisters_registers]
    rfl

theorem restoreState_recovers {m : MemoryOperand} (readable : s.wordsFault? (s.addressOf m) 9 = none)
    (found : s.wordsAt (s.addressOf m) 9 = p.stateWords) :
    ∃ t, (restoreState m).run s = .ok () t ∧ p.Recovers s t ∧ t.flags = p.flags := by
  obtain ⟨first, last⟩ := (Processor.wordsFault?_add_eq_none_iff 8 1).mp readable
  rw [Processor.wordsAt_add 8 1, Processor.stateWords] at found
  obtain ⟨words, packed⟩ := List.append_inj found
    (by rw [Processor.length_wordsAt, List.length_map]; rfl)
  have count : (4 : Word) * UInt32.ofNat 8 = 32 := rfl
  have packed := (List.cons.inj packed).1
  rw [count] at last packed
  have values : stateBlock.zip (stateBlock.map p.reg) = stateBlock.map fun r => (r, p.reg r) := rfl
  have apart : stateBlock.Pairwise Register.Apart := by decide
  have general : ∀ r ∈ Register.owners, r ≠ .eip → r ∈ stateBlock := by decide
  have others : ∀ r ∈ stateBlock, r.Apart .eip := by decide
  have ran := restoreState_run first (Processor.wordsFault?_succ_eq_none_iff.mp last).1
  rw [words, values, packed, Flags.unpack_pack] at ran
  refine ⟨_, ran, ⟨fun r member other => ?_, ?_, ?_⟩, rfl⟩
  · exact Processor.reg_setRegisters_map apart (general r member other)
  · refine Processor.reg_setRegisters_of_apart fun r among => ?_
    rw [List.map_map] at among
    exact others r (by simpa using among)
  · rw [Processor.setRegisters_registers]
    rfl

end Execution

namespace Processor

variable {p s : Processor δ} {address : Word}

/-- Stored words are found by whoever finds their bytes. -/
theorem words_of_stored (values : List Word) (some : values ≠ [])
    (whole : p.wordsFault? address values.length = none)
    (same : s.memory.slice? address (4 * values.length) =
      (p.storeWords address values).memory.slice? address (4 * values.length)) :
    s.wordsFault? address values.length = none ∧ s.wordsAt address values.length = values := by
  have readable : (p.storeWords address values).wordsFault? address values.length = none :=
    (wordsFault?_storeWords ..).trans whole
  obtain ⟨n, count⟩ := Nat.exists_eq_succ_of_ne_zero (mt List.eq_nil_of_length_eq_zero some)
  have inside : (p.storeWords address values).memory.inRange address (4 * values.length) := by
    rw [count] at readable ⊢
    exact inRange_of_words readable
  obtain ⟨readable', found⟩ := words_of_slice? inside same readable
    fun _ => ⟨Nat.le_refl _, Nat.le_refl _⟩
  exact ⟨readable', found.trans (wordsAt_storeWords whole)⟩

end Processor

namespace Instruction

variable [PortDevice δ] {i j : Instruction} {p q s : Processor δ}

/-- A stored block brings back all general registers, as long as its bytes are those that were stored.
`popad` looks for it at the stack pointer and gets that one back too; `xrstor` may name it by another
operand, and restores the flags. -/
theorem block_comes_back (stored : i.execute.run p = .ok () q) :
    (i.op = .stack .pushad → j.op = .stack .popad → s.reg .esp = q.reg .esp →
      s.memory.slice? (q.reg .esp) 32 = q.memory.slice? (q.reg .esp) 32 →
      ∃ t, j.execute.run s = .ok () t ∧ p.Recovers s t ∧ t.flags = s.flags) ∧
    (∀ m m', i.op = .system .xsave → i.op1 = some (.memory m) → j.op = .system .xrstor →
      j.op1 = some (.memory m') → s.addressOf m' = p.addressOf m →
      s.memory.slice? (p.addressOf m) 36 = q.memory.slice? (p.addressOf m) 36 →
      ∃ t, j.execute.run s = .ok () t ∧ p.Recovers s t ∧ t.flags = p.flags) := by
  refine ⟨fun isPush isPop top same => ?_, fun m m' isSave block isRestore block' base same => ?_⟩
  · rw [execute_of_pushad isPush] at stored
    rw [execute_of_popad isPop]
    obtain ⟨whole, rfl⟩ := Execution.pushAll_ok stored
    have lowered : ((p.storeWords (p.reg .esp - 32) p.stackWords).setReg .esp
        (p.reg .esp - 32)).reg .esp = p.reg .esp - 32 :=
      RegisterFile.get_set_whole _ rfl _
    rw [lowered] at top same
    obtain ⟨readable, found⟩ := Processor.words_of_stored p.stackWords
      (List.cons_ne_nil _ _) whole same
    rw [← top] at readable found
    exact Execution.popAll_recovers readable found top
  · rw [execute_of_xsave isSave block] at stored
    rw [execute_of_xrstor isRestore block']
    obtain ⟨whole, rfl⟩ := Execution.saveState_ok stored
    obtain ⟨readable, found⟩ := Processor.words_of_stored p.stateWords
      (List.cons_ne_nil _ _) whole same
    rw [← base] at readable found
    exact Execution.restoreState_recovers readable found

/-- `eax` and the carry flag come back though both have changed: from the stack with `esp`, and from
the block that was `[eax]` and is `[eax + 4]` when `eax` is smaller by 4. -/
theorem block_comes_back_renamed :
    let p : Processor Script :=
      ((Processor.new 64 {} default).setReg .eax 1024).withFlags { carry := true }
    let push : Instruction := { op := .stack .pushad }
    let pop : Instruction := { op := .stack .popad }
    let save : Instruction := { op := .system .xsave, op1 := some (.memory { base := some .eax }) }
    let restore : Instruction :=
      { op := .system .xrstor, op1 := some (.memory { base := some .eax, displacement := 4 }) }
    (∃ q t, push.execute.run p = .ok () q ∧ pop.execute.run (q.setReg .eax 7) = .ok () t ∧
      t.reg .eax = 1024 ∧ t.reg .esp = 1088) ∧
    ∃ q t, save.execute.run p = .ok () q ∧
      restore.execute.run ((q.setReg .eax 1020).withFlags {}) = .ok () t ∧
      t.reg .eax = 1024 ∧ t.flags.carry = true := by
  intro p push pop save restore
  have addressable : p.memory.Addressable := Memory.addressable_zero (n := 64) (by decide)
  constructor
  · obtain ⟨q, pushed⟩ : ∃ q, push.execute.run p = .ok () q :=
      ⟨_, (Execution.pushAll_run addressable).trans (if_pos (by decide +kernel))⟩
    have top : (q.setReg .eax 7).reg .esp = q.reg .esp :=
      RegisterFile.get_set_of_apart q.registers (by decide) 7
    obtain ⟨t, ran, back, -⟩ := (block_comes_back (j := pop) pushed).1 rfl rfl top rfl
    exact ⟨q, t, pushed, ran, (back.general .eax (by decide) (by decide)).trans (by decide +kernel),
      (back.general .esp (by decide) (by decide)).trans (by decide +kernel)⟩
  · obtain ⟨q, saved⟩ : ∃ q, save.execute.run p = .ok () q :=
      ⟨_, (Execution.saveState_run addressable _).trans (if_pos (by decide +kernel))⟩
    let s := (q.setReg .eax 1020).withFlags {}
    have base : s.addressOf { base := some .eax, displacement := 4 } =
        p.addressOf { base := some .eax } := by
      have lower : s.reg .eax = 1020 := RegisterFile.get_set_self q.registers .eax 1020
      have upper : p.reg .eax = 1024 := by decide +kernel
      change 4 + s.reg .eax + 0 = 0 + p.reg .eax + 0
      rw [lower, upper]
      rfl
    obtain ⟨t, ran, back, flags⟩ := (block_comes_back (j := restore) saved).2 _ _ rfl rfl rfl rfl
      base rfl
    exact ⟨q, t, saved, ran, (back.general .eax (by decide) (by decide)).trans (by decide +kernel),
      by rw [flags]; rfl⟩

end Instruction

end ReducedX86
