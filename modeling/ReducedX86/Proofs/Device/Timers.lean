import Mathlib.Order.Bounds.Basic
import ReducedX86.Operator
import ReducedX86.Proofs.Device.Board

/-!
The timers of a board over any history.

A timer is kept twice, as a byte of the ports and as a deadline. Every operation changes both
together, and none of another timer. So a timer that was armed goes off at the first look at the
board that is late enough, once, unless a write to its port or a reset comes before.
-/
namespace ReducedX86.Board

/-! One timer -/

def deadline (b : Board) (i : Fin 4) : Option Time := b.timers.get i

/-- What a board keeps of a timer: its port's byte and its deadline. -/
def slot (b : Board) (i : Fin 4) : UInt8 × Option Time :=
  (Bytes.byteAt b.ports (timerPort + i.val), b.deadline i)

/-- The board with other contents of one timer. -/
def withSlot (b : Board) (i : Fin 4) (mark : UInt8) (deadline : Option Time) : Board :=
  { b with
    ports := Bytes.setByte b.ports (timerPort + i.val) mark
    timers := Vector.ofFn fun j => if j.val = i.val then deadline else b.deadline j }

/-- A timer after a byte has been written to its port. -/
def settled (interval : Word) (now : Time) (byte : UInt8) : UInt8 × Option Time :=
  if byte ≠ 0 ∧ interval ≠ 0 then (1, some (now + milliseconds interval.toNat)) else (0, none)

section Slots

variable (b : Board) (i j : Fin 4) (mark : UInt8) (deadline : Option Time)

theorem byteAt_withSlot {port : Nat} (other : port ≠ timerPort + j.val) :
    Bytes.byteAt (b.withSlot j mark deadline).ports port = Bytes.byteAt b.ports port := by
  rw [withSlot, Bytes.byteAt_setByte, if_neg fun here => other here.1]

theorem size_withSlot : (b.withSlot j mark deadline).ports.size = b.ports.size :=
  Bytes.size_setByte ..

theorem slot_withSlot (size : b.ports.size = 16) :
    (b.withSlot j mark deadline).slot i = if i = j then (mark, deadline) else b.slot i := by
  have timer : (b.withSlot j mark deadline).deadline i =
      if i.val = j.val then deadline else b.deadline i := by
    change (b.withSlot j mark deadline).timers[i.val] = _
    rw [withSlot, Vector.getElem_ofFn]
  rw [slot, timer]
  by_cases same : i = j
  · subst same
    have inside : timerPort + i.val < b.ports.size := by simp only [timerPort, size]; omega
    rw [if_pos rfl, if_pos rfl, withSlot, Bytes.byteAt_setByte, if_pos ⟨rfl, inside⟩]
  · have apart : timerPort + i.val ≠ timerPort + j.val := fun e => same (Fin.ext (by omega))
    have unequal : i.val ≠ j.val := fun e => same (Fin.ext e)
    rw [if_neg unequal, if_neg same, b.byteAt_withSlot j mark deadline apart, slot]

theorem set_eq_ofFn {α : Type} {n : Nat} (xs : Vector α n) {i : Nat} (inside : i < n) (x : α) :
    xs.set i x inside = Vector.ofFn fun j => if j.val = i then x else xs.get j := by
  refine Vector.ext fun j within => ?_
  rw [Vector.getElem_set, Vector.getElem_ofFn]
  exact if_congr eq_comm rfl rfl

theorem rearm_eq (now : Time) :
    b.rearm now j = b.withSlot j (settled b.interval now (b.slot j).1).1
      (settled b.interval now (b.slot j).1).2 := by
  rw [rearm, settled, set_eq_ofFn]
  by_cases written : (b.slot j).1 ≠ 0 ∧ b.interval ≠ 0
  · have armed : (Bytes.byteAt b.ports (timerPort + j.val) != 0 && b.interval != 0) = true := by
      simpa [slot] using written
    simp only [armed, if_pos written]
    rfl
  · have disarmed : (Bytes.byteAt b.ports (timerPort + j.val) != 0 && b.interval != 0) = false := by
      simpa [slot] using written
    simp only [disarmed, if_neg written]
    rfl

theorem disarm_eq : b.disarm j = b.withSlot j 0 none := by
  rw [disarm, set_eq_ofFn]
  rfl

end Slots

/-- What `f` makes of a timer is seen there only, and depends on the interval and that timer. -/
structure ActsOnTimers (f : Board → Fin 4 → Board)
    (g : Word → UInt8 × Option Time → UInt8 × Option Time) : Prop where
  size : ∀ b j, (f b j).ports.size = b.ports.size
  bytes : ∀ b j port, port ≠ timerPort + j.val →
    Bytes.byteAt (f b j).ports port = Bytes.byteAt b.ports port
  slot : ∀ b i j, b.ports.size = 16 →
    (f b j).slot i = if i = j then g b.interval (b.slot i) else b.slot i

theorem rearm_actsOnTimers (now : Time) :
    ActsOnTimers (rearm · now) fun interval s => settled interval now s.1 where
  size b j := by rw [rearm_eq, size_withSlot]
  bytes b j port other := by rw [rearm_eq, byteAt_withSlot b j _ _ other]
  slot b i j size := by
    rw [rearm_eq, slot_withSlot b i j _ _ size]
    by_cases same : i = j
    · subst same
      rfl
    · simp only [if_neg same]

theorem disarm_actsOnTimers : ActsOnTimers disarm fun _ _ => (0, none) where
  size b j := size_withSlot b j 0 none
  bytes b j _ other := byteAt_withSlot b j 0 none other
  slot b i j size := by rw [disarm_eq, slot_withSlot b i j 0 none size]

namespace ActsOnTimers

variable {f : Board → Fin 4 → Board} {g : Word → UInt8 × Option Time → UInt8 × Option Time}
  (acts : ActsOnTimers f g) (timers : List (Fin 4)) {b : Board}
include acts

theorem size_foldl : (timers.foldl f b).ports.size = b.ports.size :=
  foldl_keeps (·.ports.size) f acts.size timers b

theorem byteAt_foldl {port : Nat} (apart : ∀ i : Fin 4, port ≠ timerPort + i.val) :
    Bytes.byteAt (timers.foldl f b).ports port = Bytes.byteAt b.ports port :=
  foldl_keeps (Bytes.byteAt ·.ports port) f (fun b j => acts.bytes b j port (apart j)) timers b

theorem interval_foldl : (timers.foldl f b).interval = b.interval := by
  have bytes : Bytes.load (timers.foldl f b).ports intervalPort 4 =
      Bytes.load b.ports intervalPort 4 := Bytes.load_congr fun port _ below =>
    acts.byteAt_foldl timers fun i => by
      simp only [intervalPort, timerPort] at *
      omega
  simp only [interval, word, bytes]

/-- Acting on several timers changes each of them once. -/
theorem slot_foldl (once : timers.Nodup) (size : b.ports.size = 16) (i : Fin 4) :
    (timers.foldl f b).slot i = if timers.contains i then g b.interval (b.slot i) else b.slot i := by
  induction timers generalizing b with
  | nil => simp
  | cons j rest ih =>
      obtain ⟨fresh, once⟩ := List.nodup_cons.mp once
      have interval : (f b j).interval = b.interval := acts.interval_foldl [j]
      rw [List.foldl_cons, ih once ((acts.size b j).trans size), interval, acts.slot b i j size]
      by_cases same : i = j
      · subst same
        simp [fresh]
      · simp [same]

end ActsOnTimers

/-! Writing to the ports -/

theorem size_writePorts (ports : ByteArray) (start : Word) (size : Nat) (buffer : Word) :
    (writePorts ports start size buffer).size = ports.size := by
  rw [writePorts]
  generalize List.range (min size 4) = offsets
  induction offsets generalizing ports with
  | nil => rfl
  | cons i rest ih =>
      rw [List.foldl_cons, ih]
      simp only
      split
      · exact Bytes.size_setByte ..
      · rfl

theorem byteAt_writePorts (ports : ByteArray) (start : Word) {size : Nat} (fits : size ≤ 4)
    (buffer : Word) {port : Nat} (inside : port < ports.size) :
    Bytes.byteAt (writePorts ports start size buffer) port =
      if covers start size port ∧ intervalPort ≤ port ∧ port < timerPort + timerCount then
        buffer.byte (port - start.toNat)
      else Bytes.byteAt ports port := by
  induction size with
  | zero =>
      have nothing : ¬ covers start 0 port := by simp [covers]
      simp [writePorts, nothing]
  | succ size ih =>
      have kept := size_writePorts ports start size buffer
      have last : writePorts ports start (size + 1) buffer =
          if intervalPort ≤ start.toNat + size ∧ start.toNat + size < timerPort + timerCount then
            Bytes.setByte (writePorts ports start size buffer) (start.toNat + size)
              (buffer.byte size)
          else writePorts ports start size buffer := by
        rw [writePorts, Nat.min_eq_left fits, List.range_succ, List.foldl_append, writePorts,
          Nat.min_eq_left (by omega)]
        rfl
      have reached : covers start (size + 1) port ↔
          covers start size port ∨ port = start.toNat + size := by
        simp only [covers, Bool.and_eq_true, decide_eq_true_eq]
        omega
      have before : covers start size port → port ≠ start.toNat + size := by
        simp only [covers, Bool.and_eq_true, decide_eq_true_eq]
        omega
      rw [last]
      by_cases here : port = start.toNat + size
      · subst here
        have unreached : ¬ covers start size (start.toNat + size) := fun c => before c rfl
        split
        · rename_i writable
          rw [Bytes.byteAt_setByte, if_pos ⟨rfl, kept ▸ inside⟩,
            if_pos ⟨reached.mpr (.inr rfl), writable⟩, Nat.add_sub_cancel_left]
        · rename_i readOnly
          rw [ih (by omega), if_neg fun c => unreached c.1, if_neg fun c => readOnly c.2]
      · have same : covers start (size + 1) port ↔ covers start size port :=
          reached.trans (or_iff_left here)
        rw [if_congr (and_congr_left fun _ => same) rfl rfl, ← ih (by omega)]
        split
        · rw [Bytes.byteAt_setByte, if_neg fun c => here c.1]
        · rfl

/-! What an operation leaves of each timer -/

section Operations

variable {b : Board} (size : b.ports.size = 16) (i : Fin 4) (now : Time)

/-- The board with a write in its ports, before the timers have looked at them. -/
def written (b : Board) (port : Word) (count : Nat) (buffer : Word) : Board :=
  { b with ports := writePorts b.ports port count buffer }

/-- The timers that a write reaches. -/
def reached (port : Word) (count : Nat) : List (Fin 4) :=
  (List.finRange 4).filter fun i => covers port count (timerPort + i.val)

theorem exists_output (port : Word) (count : Nat) (buffer : Word) : ∃ asked,
    b.output now port count buffer =
      { (reached port count).foldl (rearm · now) (b.written port count buffer) with
        resetRequested := asked } := by
  rw [output, reached, List.foldl_filter]
  split
  · exact ⟨true, rfl⟩
  · exact ⟨_, rfl⟩

include size

theorem slot_output (port : Word) {count : Nat} (fits : count ≤ 4) (buffer : Word) :
    (b.output now port count buffer).slot i =
      if covers port count (timerPort + i.val) then
        settled (b.output now port count buffer).interval now
          (buffer.byte (timerPort + i.val - port.toNat))
      else b.slot i := by
  obtain ⟨asked, output_eq⟩ := b.exists_output now port count buffer
  have acts := rearm_actsOnTimers now
  have once : (reached port count).Nodup := (List.nodup_finRange 4).filter _
  have size' : (b.written port count buffer).ports.size = 16 := (size_writePorts ..).trans size
  have acted := acts.slot_foldl _ once size' i
  have interval := acts.interval_foldl (reached port count) (b := b.written port count buffer)
  have member : (reached port count).contains i ↔ covers port count (timerPort + i.val) := by
    simp [reached]
  have inside : timerPort + i.val < b.ports.size := by simp only [timerPort, size]; omega
  have writable : intervalPort ≤ timerPort + i.val ∧ timerPort + i.val < timerPort + timerCount :=
    ⟨timerPort_past i, by simp only [timerCount]; omega⟩
  have byte := byteAt_writePorts b.ports port fits buffer inside
  rw [output_eq]
  change ((reached port count).foldl (rearm · now) (b.written port count buffer)).slot i =
    if covers port count (timerPort + i.val) then
      settled ((reached port count).foldl (rearm · now) (b.written port count buffer)).interval now
        (buffer.byte (timerPort + i.val - port.toNat))
    else b.slot i
  rw [acted, interval, if_congr member rfl rfl]
  by_cases covered : covers port count (timerPort + i.val)
  · rw [if_pos ⟨covered, writable⟩] at byte
    rw [if_pos covered, if_pos covered]
    simp only [slot, written, byte]
  · rw [if_neg fun c => covered c.1] at byte
    rw [if_neg covered, if_neg covered]
    simp only [slot, deadline, written, byte]

theorem slot_poll : (b.poll now).2.slot i = if b.isDue now i then (0, none) else b.slot i := by
  have once : ((List.finRange 4).filter (b.isDue now)).Nodup := (List.nodup_finRange 4).filter _
  have acted := disarm_actsOnTimers.slot_foldl _ once size i
  have due : ((List.finRange 4).filter (b.isDue now)).contains i ↔ b.isDue now i := by simp
  exact acted.trans (if_congr due rfl rfl)

end Operations

/-! Histories -/

/-- What a processor and its host do with a board. -/
inductive Event
  | input (now : Reading) (port : Word) (width : Width) (buffer : Word)
  | output (now : Reading) (port : Word) (width : Width) (buffer : Word)
  | poll (now : Time)
  | takeResetRequest
  | reset (now : Reading)

/-- The board after an event. -/
def after (b : Board) : Event → Board
  | .input now port width buffer => (PortDevice.input b now port width.bytes buffer).2.2
  | .output now port width buffer => (PortDevice.output b now port width.bytes buffer).2
  | .poll now => (PortDevice.poll b now).2
  | .takeResetRequest => (PortDevice.takeResetRequest b).2
  | .reset now => PortDevice.reset b now

def afterAll (b : Board) (events : List Event) : Board := events.foldl after b

/-- The interrupts that an event brings. -/
def interrupts (b : Board) : Event → List UInt8
  | .poll now => (PortDevice.poll b now).1
  | _ => []

/-- The interrupts of a history, in order. -/
def raised (b : Board) : List Event → List UInt8
  | [] => []
  | e :: rest => b.interrupts e ++ (b.after e).raised rest

def interruptOf (i : Fin 4) : UInt8 := UInt8.ofNat (firstInterrupt + i.val)

namespace Event

/-- Whether the event writes to the port of a timer, or resets it. -/
def reaches (i : Fin 4) : Event → Bool
  | output _ port width _ => covers port width.bytes (timerPort + i.val)
  | reset _ => true
  | _ => false

/-- The deadline that an event gives to a timer it reaches, if the interval is then `interval`. -/
def deadline? (i : Fin 4) (interval : Word) : Event → Option Time
  | output now port _ buffer =>
      if buffer.byte (timerPort + i.val - port.toNat) ≠ 0 ∧ interval ≠ 0 then
        some (now.instant + milliseconds interval.toNat)
      else none
  | _ => none

/-- Whether the event is a look for timers that are due, at the deadline or later. -/
def looksFrom (deadline : Time) : Event → Bool
  | poll now => deadline ≤ now
  | _ => false

end Event

/-- The ports agree with the deadlines, and none is used past those of the timers. -/
structure Regular (b : Board) : Prop where
  size : b.ports.size = 16
  marked : ∀ i, (b.slot i).1 = if (b.slot i).2.isSome then 1 else 0
  spare : ∀ port, timerPort + timerCount ≤ port → port < 16 → Bytes.byteAt b.ports port = 0

theorem settled_marked (interval : Word) (now : Time) (byte : UInt8) :
    (settled interval now byte).1 = if (settled interval now byte).2.isSome then 1 else 0 := by
  rw [settled]
  split <;> rfl

theorem bytes_le (width : Width) : width.bytes ≤ 4 := by cases width <;> decide

theorem isDue_eq (b : Board) (now : Time) (i : Fin 4) :
    b.isDue now i = (b.deadline i).any fun deadline => deadline ≤ now := by
  have timer : b.timers[i] = b.deadline i := rfl
  rw [isDue, timer]
  cases b.deadline i <;> rfl

theorem isDue_iff {b : Board} {now : Time} {i : Fin 4} :
    b.isDue now i ↔ ∃ deadline, b.deadline i = some deadline ∧ deadline ≤ now := by
  rw [isDue_eq]
  cases b.deadline i <;> simp

section Steps

variable {b : Board}

theorem exists_input (wall : Nat) (port : Word) :
    ∃ time, (b.input wall port).2 = b.withClock time := by
  rw [input]
  split
  · exact ⟨_, rfl⟩
  · split <;> exact b.exists_withClock

theorem timers_withClock (time : Nat) : (b.withClock time).timers = b.timers := by rw [withClock]

theorem slot_withClock (time : Nat) (i : Fin 4) : (b.withClock time).slot i = b.slot i := by
  rw [slot, b.byteAt_withClock time (timerPort_past i), deadline, timers_withClock, slot, deadline]

theorem byteAt_initialPorts (interval : Word) (wall : Nat) {port : Nat} (past : timerPort ≤ port)
    (inside : port < 16) : Bytes.byteAt (initialPorts interval wall) port = 0 := by
  have blank : ∀ port < 16, Bytes.byteAt (Bytes.zeros 16) port = 0 := by decide
  simp only [timerPort] at past
  rw [initialPorts, Bytes.byteAt_store, if_neg (by simp only [intervalPort]; omega),
    Bytes.byteAt_store, if_neg (by simp only [clockPort]; omega), blank port inside]

theorem regular_powerOn (interval : Word) (wall : Nat) : (powerOn interval wall).Regular := by
  have ports : (powerOn interval wall).ports = initialPorts interval wall := by rw [powerOn]
  have unarmed (i : Fin 4) : (powerOn interval wall).deadline i = none :=
    Vector.getElem_replicate i.isLt
  refine ⟨?_, fun i => ?_, fun port past inside => ?_⟩
  · rw [ports]
    simp only [initialPorts, Bytes.size_store, Bytes.size_zeros]
  · have unmarked := byteAt_initialPorts interval wall (Nat.le_add_right timerPort i.val)
      (by simp only [timerPort]; omega)
    simp only [slot, ports, unarmed, unmarked, Option.isSome_none, Bool.false_eq_true, if_false]
  · rw [ports]
    exact byteAt_initialPorts interval wall (Nat.le_trans (by decide) past) inside

theorem Regular.withClock (regular : b.Regular) (time : Nat) : (b.withClock time).Regular where
  size := by simp only [Board.withClock, Bytes.size_store, regular.size]
  marked i := by
    rw [slot_withClock]
    exact regular.marked i
  spare port past inside := by
    rw [b.byteAt_withClock time (Nat.le_trans (by decide) past)]
    exact regular.spare port past inside

theorem Regular.output (regular : b.Regular) (now : Time) (port : Word) (width : Width)
    (buffer : Word) : (b.output now port width.bytes buffer).Regular where
  size := by
    obtain ⟨asked, output_eq⟩ := b.exists_output now port width.bytes buffer
    rw [output_eq]
    exact ((rearm_actsOnTimers now).size_foldl _).trans ((size_writePorts ..).trans regular.size)
  marked i := by
    rw [slot_output regular.size i now port (bytes_le width)]
    split
    · exact settled_marked ..
    · exact regular.marked i
  spare other past inside := by
    obtain ⟨asked, output_eq⟩ := b.exists_output now port width.bytes buffer
    have apart (i : Fin 4) : other ≠ timerPort + i.val := by
      simp only [timerPort, timerCount] at *
      omega
    have kept := (rearm_actsOnTimers now).byteAt_foldl (reached port width.bytes)
      (b := b.written port width.bytes buffer) apart
    have present : other < b.ports.size := by rw [regular.size]; exact inside
    have unwritten := byteAt_writePorts b.ports port (bytes_le width) buffer present
    rw [if_neg fun c => absurd c.2.2 (by omega)] at unwritten
    rw [output_eq]
    exact kept.trans (unwritten.trans (regular.spare other past inside))

theorem Regular.poll (regular : b.Regular) (now : Time) : (b.poll now).2.Regular where
  size := (disarm_actsOnTimers.size_foldl _).trans regular.size
  marked i := by
    rw [slot_poll regular.size i now]
    split
    · rfl
    · exact regular.marked i
  spare port past inside := by
    have apart (i : Fin 4) : port ≠ timerPort + i.val := by
      simp only [timerPort, timerCount] at *
      omega
    exact (disarm_actsOnTimers.byteAt_foldl _ apart).trans (regular.spare port past inside)

theorem Regular.after (regular : b.Regular) (e : Event) : (b.after e).Regular := by
  cases e with
  | input now port width buffer =>
      obtain ⟨time, input_eq⟩ := b.exists_input now.wall port
      change (b.input now.wall port).2.Regular
      rw [input_eq]
      exact regular.withClock time
  | output now port width buffer => exact regular.output now.instant port width buffer
  | poll now => exact regular.poll now
  | takeResetRequest => exact ⟨regular.size, regular.marked, regular.spare⟩
  | reset now => exact regular_powerOn b.defaultInterval now.wall

theorem Regular.afterAll (regular : b.Regular) (events : List Event) :
    (b.afterAll events).Regular := by
  induction events generalizing b with
  | nil => exact regular
  | cons e rest ih => exact ih (regular.after e)

/-! Deadlines -/

theorem timers_after_reached (size : b.ports.size = 16) {e : Event} {i : Fin 4}
    (reached : e.reaches i) : (b.after e).deadline i = e.deadline? i (b.after e).interval := by
  cases e with
  | output now port width buffer =>
      have covered : covers port width.bytes (timerPort + i.val) := reached
      have slot := slot_output size i now.instant port (bytes_le width) buffer
      rw [if_pos covered] at slot
      have deadline := congrArg Prod.snd slot
      refine deadline.trans ?_
      rw [settled, apply_ite Prod.snd]
      rfl
  | reset now => exact Vector.getElem_replicate i.isLt
  | input | poll | takeResetRequest => cases reached

theorem timers_after_poll (size : b.ports.size = 16) (now : Time) (i : Fin 4) :
    (b.poll now).2.deadline i = (b.deadline i).filter fun deadline => now < deadline := by
  have deadline := congrArg Prod.snd (slot_poll size i now)
  refine deadline.trans ?_
  rw [apply_ite Prod.snd, isDue_eq, slot]
  cases b.deadline i with
  | none => rfl
  | some deadline =>
      by_cases due : deadline ≤ now <;> simp [Option.filter, due]

theorem timers_after (size : b.ports.size = 16) {e : Event} {i : Fin 4}
    (apart : e.reaches i = false) :
    (b.after e).deadline i = (b.deadline i).filter fun deadline => !e.looksFrom deadline := by
  have kept : b.deadline i = (b.deadline i).filter fun _ => true := by cases b.deadline i <;> rfl
  cases e with
  | input now port width buffer =>
      obtain ⟨time, input_eq⟩ := b.exists_input now.wall port
      have same : (b.after (.input now port width buffer)).timers = b.timers := by
        change (b.input now.wall port).2.timers = b.timers
        rw [input_eq, timers_withClock]
      exact (congrArg (·.get i) same).trans kept
  | output now port width buffer =>
      have uncovered : ¬ covers port width.bytes (timerPort + i.val) := Bool.eq_false_iff.mp apart
      have slot := slot_output size i now.instant port (bytes_le width) buffer
      rw [if_neg uncovered] at slot
      exact (congrArg Prod.snd slot).trans kept
  | poll now =>
      refine (timers_after_poll size now i).trans ?_
      simp only [Event.looksFrom, ← decide_not, Nat.not_le]
  | takeResetRequest => exact kept
  | reset now => cases apart

/-- A deadline stands until the first look that is late enough. -/
theorem timers_afterAll (regular : b.Regular) {events : List Event} {i : Fin 4}
    (apart : ∀ e ∈ events, e.reaches i = false) :
    (b.afterAll events).deadline i =
      (b.deadline i).filter fun deadline => !events.any (·.looksFrom deadline) := by
  induction events generalizing b with
  | nil => cases standing : b.deadline i <;> simp [afterAll, standing, Option.filter]
  | cons e rest ih =>
      obtain ⟨first, others⟩ := List.forall_mem_cons.mp apart
      have later := ih (regular.after e) others
      change ((b.after e).afterAll rest).deadline i = _
      rw [later, timers_after regular.size first, Option.filter_filter]
      simp only [List.any_cons, Bool.not_or, Bool.and_comm]

end Steps

/-! Interrupts -/

theorem interruptOf_lt : ∀ i j : Fin 4, i < j → interruptOf i < interruptOf j := by decide

theorem le_interruptOf : ∀ i : Fin 4, 32 ≤ interruptOf i := by decide

theorem interruptOf_injective : ∀ i j : Fin 4, interruptOf i = interruptOf j → i = j := by decide

variable {b : Board}

theorem isArmed_eq (i : Fin 4) : b.isArmed i.val = (b.deadline i).isSome := by
  rw [isArmed, Vector.getElem?_eq_getElem i.isLt]
  rfl

theorem mem_poll_iff {now : Time} {number : UInt8} :
    number ∈ (b.poll now).1 ↔ ∃ i, b.isDue now i ∧ number = interruptOf i := by
  have listed (i : Fin 4) : i ∈ (List.finRange 4).filter (b.isDue now) ↔ b.isDue now i := by simp
  refine List.mem_map.trans (exists_congr fun i => ?_)
  exact and_congr (listed i) eq_comm

theorem interruptOf_mem_poll_iff {now : Time} {i : Fin 4} :
    interruptOf i ∈ (b.poll now).1 ↔ b.isDue now i := by
  rw [mem_poll_iff]
  constructor
  · rintro ⟨j, due, same⟩
    rwa [interruptOf_injective i j same]
  · intro due
    exact ⟨i, due, rfl⟩

theorem pairwise_poll (now : Time) : (b.poll now).1.Pairwise (· < ·) := by
  have ordered : ((List.finRange 4).filter (b.isDue now)).Pairwise (· < ·) :=
    (List.pairwise_lt_finRange 4).filter _
  exact ordered.map interruptOf interruptOf_lt

/-- An event that leaves a timer alone brings its interrupt if it is the look that it waited for. -/
theorem count_interrupts {e : Event} {i : Fin 4} :
    (b.interrupts e).count (interruptOf i) = if (b.deadline i).any e.looksFrom then 1 else 0 := by
  cases e with
  | poll now =>
      have once : (b.poll now).1.Nodup := (pairwise_poll now).imp UInt8.ne_of_lt
      have waited : (b.deadline i).any (Event.poll now).looksFrom = b.isDue now i := by
        rw [isDue_eq]
        cases b.deadline i <;> rfl
      rw [waited]
      change (b.poll now).1.count (interruptOf i) = _
      rw [once.count]
      exact if_congr interruptOf_mem_poll_iff rfl rfl
  | input | output | takeResetRequest | reset => simp [interrupts, Event.looksFrom]

theorem count_raised (regular : b.Regular) {events : List Event} {i : Fin 4}
    (apart : ∀ e ∈ events, e.reaches i = false) :
    (b.raised events).count (interruptOf i) =
      if (b.deadline i).any fun deadline => events.any (·.looksFrom deadline) then 1 else 0 := by
  induction events generalizing b with
  | nil => cases b.deadline i <;> simp [raised]
  | cons e rest ih =>
      obtain ⟨first, others⟩ := List.forall_mem_cons.mp apart
      rw [raised, List.count_append, count_interrupts, ih (regular.after e) others,
        timers_after regular.size first]
      cases b.deadline i with
      | none => rfl
      | some deadline =>
          cases late : e.looksFrom deadline <;> simp [Option.filter, late]

/-- Until an event reaches the timer, it goes off once, at the first look from its deadline on. -/
structure GoesOff (b : Board) (i : Fin 4) (deadline : Option Time) : Prop where
  stands : b.deadline i = deadline
  once : ∀ later : List Event, (∀ e ∈ later, e.reaches i = false) →
    (b.raised later).count (interruptOf i) =
      if deadline.any fun d => later.any (·.looksFrom d) then 1 else 0
  first : ∀ later : List Event, (∀ e ∈ later, e.reaches i = false) → ∀ now,
    interruptOf i ∈ (PortDevice.poll (b.afterAll later) now).1 ↔
      ∃ d, deadline = some d ∧ d ≤ now ∧ ∀ e ∈ later, e.looksFrom d = false

theorem Regular.goesOff (regular : b.Regular) (i : Fin 4) : b.GoesOff i (b.deadline i) where
  stands := rfl
  once _ apart := count_raised regular apart
  first later apart now := by
    refine interruptOf_mem_poll_iff.trans (isDue_iff.trans ?_)
    rw [timers_afterAll regular apart]
    refine exists_congr fun d => ?_
    rw [Option.filter_eq_some_iff]
    simp [and_comm, and_left_comm]

/-! The next deadline -/

theorem foldl_min {f : Option Time → Option Time → Option Time} (none_right : ∀ a, f a none = a)
    (none_left : ∀ b, f none (some b) = some b) (both : ∀ a b, f (some a) (some b) = some (min a b))
    (deadlines : List (Option Time)) (start : Option Time) :
    deadlines.foldl f start = (start.toList ++ deadlines.filterMap id).min? := by
  induction deadlines generalizing start with
  | nil => cases start <;> rfl
  | cons deadline rest ih =>
      rw [List.foldl_cons, ih]
      cases deadline with
      | none => rw [none_right]; rfl
      | some d =>
          cases start with
          | none => rw [none_left]; rfl
          | some a => rw [both]; rfl

theorem nextDeadline_eq (b : Board) :
    b.nextDeadline = (b.timers.toList.filterMap id).min? :=
  foldl_min (fun a => by cases a <;> rfl) (fun _ => rfl) (fun _ _ => rfl) _ none

theorem mem_deadlines_iff {d : Time} :
    d ∈ b.timers.toList.filterMap id ↔ ∃ i : Fin 4, b.deadline i = some d := by
  simp only [List.mem_filterMap, id_eq, exists_eq_right, Vector.mem_toList_iff,
    Vector.mem_iff_getElem]
  exact ⟨fun ⟨i, inside, found⟩ => ⟨⟨i, inside⟩, found⟩, fun ⟨i, found⟩ => ⟨i, i.isLt, found⟩⟩

/-- After any history a board's timers agree with its ports, the next deadline is the earliest one,
a look brings the interrupts of the timers that are due and disarms these, and a timer whose port is
written to goes off as the write says: one interval after it if the byte and the interval are not
zero, and else not at all. -/
theorem timers_keep_time (interval : Word) (wall : Nat) (history : List Event) :
    let b := (powerOn interval wall).afterAll history
    (∀ i : Fin 4, (b.isArmed i.val ↔ Bytes.byteAt b.ports (timerPort + i.val) ≠ 0) ∧
      (b.isArmed i.val → Bytes.byteAt b.ports (timerPort + i.val) = 1)) ∧
    (∀ port, 12 ≤ port → port < 16 → Bytes.byteAt b.ports port = 0) ∧
    (∀ deadline, PortDevice.nextDeadline b = some deadline ↔
      IsLeast {d | ∃ i : Fin 4, b.deadline i = some d} deadline) ∧
    (PortDevice.nextDeadline b = none ↔ ∀ i : Fin 4, ¬ b.isArmed i.val) ∧
    (∀ now,
      (∀ number, number ∈ (PortDevice.poll b now).1 ↔
        ∃ i, (∃ d, b.deadline i = some d ∧ d ≤ now) ∧ number = interruptOf i) ∧
      (PortDevice.poll b now).1.Pairwise (· < ·) ∧
      ∀ i : Fin 4, (PortDevice.poll b now).2.deadline i = (b.deadline i).filter fun d => now < d) ∧
    ∀ e i, e.reaches i → (b.after e).GoesOff i (e.deadline? i (b.after e).interval) := by
  intro b
  have regular : b.Regular := (regular_powerOn interval wall).afterAll history
  refine ⟨fun i => ?_, regular.spare, fun deadline => ?_, ?_, fun now => ?_, fun e i reached => ?_⟩
  · have marked : Bytes.byteAt b.ports (timerPort + i.val) = if (b.deadline i).isSome then 1 else 0 :=
      regular.marked i
    rw [isArmed_eq, marked]
    cases b.deadline i <;> simp
  · change b.nextDeadline = some deadline ↔ _
    rw [nextDeadline_eq, List.min?_eq_some_iff]
    simp only [mem_deadlines_iff]
    rfl
  · change b.nextDeadline = none ↔ _
    rw [nextDeadline_eq, List.min?_eq_none_iff, List.eq_nil_iff_forall_not_mem]
    simp only [mem_deadlines_iff, isArmed_eq, Option.isSome_iff_exists, not_exists]
    exact forall_comm
  · refine ⟨fun number => ?_, pairwise_poll now, timers_after_poll regular.size now⟩
    refine mem_poll_iff.trans (exists_congr fun i => ?_)
    rw [isDue_iff]
  · have goesOff := (regular.after e).goesOff i
    rwa [timers_after_reached regular.size reached] at goesOff

/-- A write to ports 6 to 9 sets the interval to 0x10064 and arms two timers with it. -/
theorem timers_keep_time_straddling :
    let e := Event.output { instant := 5 } 6 .dword 0x01010001
    e.reaches 1 ∧ ((powerOn 100 0).after e).GoesOff 1 (some (5 + milliseconds 0x10064)) := by
  have reached : (Event.output { instant := 5 } 6 .dword 0x01010001).reaches 1 := by decide
  have goesOff := (timers_keep_time 100 0 []).2.2.2.2.2 _ 1 reached
  have deadline : (Event.output { instant := 5 } 6 .dword 0x01010001).deadline? 1
      ((powerOn 100 0).after (.output { instant := 5 } 6 .dword 0x01010001)).interval =
        some (5 + milliseconds 0x10064) := by
    decide +kernel
  exact ⟨reached, deadline ▸ goesOff⟩

end ReducedX86.Board
