import ReducedX86.Device.Board
import ReducedX86.Proofs.Bytes

/-!
What a board keeps, and what it does not look at.

Whether a reset was asked for and which interval follows one survive the timers. Ports 0 to 3 hold
the time of the last look at the clock. Whoever does not read them cannot tell it: all else that a
board does is the same whatever they hold.
-/
namespace ReducedX86.Board

/-- What no single timer changes, no list of them does. -/
theorem foldl_keeps {α : Type} (look : Board → α) (f : Board → Fin 4 → Board)
    (keeps : ∀ b timer, look (f b timer) = look b) (timers : List (Fin 4)) (b : Board) :
    look (timers.foldl f b) = look b := by
  induction timers generalizing b with
  | nil => rfl
  | cons timer rest ih => exact (ih (f b timer)).trans (keeps b timer)

theorem resetRequested_poll (b : Board) (now : Time) :
    (b.poll now).2.resetRequested = b.resetRequested :=
  foldl_keeps resetRequested disarm (fun _ _ => rfl) _ b

theorem defaultInterval_poll (b : Board) (now : Time) :
    (b.poll now).2.defaultInterval = b.defaultInterval :=
  foldl_keeps defaultInterval disarm (fun _ _ => rfl) _ b

theorem defaultInterval_input (b : Board) (wall : Nat) (port : Word) :
    (b.input wall port).2.defaultInterval = b.defaultInterval := by
  rw [input]
  split
  · rfl
  · split <;> rfl

/-- What no timer changes when it looks at its port, all those do not that a write reaches. -/
theorem foldl_rearm_keeps {α : Type} (look : Board → α) (now : Time) (port : Word) (size : Nat)
    (keeps : ∀ b timer, look (rearm b now timer) = look b) (b : Board) :
    look ((List.finRange 4).foldl (fun b timer =>
      if covers port size (timerPort + timer.val) then b.rearm now timer else b) b) = look b := by
  refine foldl_keeps look _ (fun b timer => ?_) _ b
  split
  · exact keeps b timer
  · rfl

theorem defaultInterval_output (b : Board) (now : Time) (port : Word) (size : Nat)
    (buffer : Word) : (b.output now port size buffer).defaultInterval = b.defaultInterval := by
  rw [output]
  split <;> exact foldl_rearm_keeps defaultInterval now port size (fun _ _ => rfl) _

theorem resetRequested_input (b : Board) (wall : Nat) (port : Word) :
    (b.input wall port).2.resetRequested = b.resetRequested := by
  rw [input]
  split
  · rfl
  · split <;> rfl

theorem resetRequested_output (b : Board) (now : Time) (port : Word) (size : Nat) (buffer : Word) :
    (b.output now port size buffer).resetRequested =
      (covers port size resetPort && buffer.byte (resetPort - port.toNat) != 0 ||
        b.resetRequested) := by
  rw [output]
  split
  · rename_i asked
    rw [asked, Bool.true_or]
  · rename_i quiet
    rw [Bool.eq_false_iff.mpr quiet, Bool.false_or]
    exact foldl_rearm_keeps resetRequested now port size (fun _ _ => rfl) _

/-- The board with another time in its clock port. -/
def withClock (b : Board) (time : Nat) : Board :=
  { b with ports := Bytes.store b.ports clockPort 4 time }

variable (b : Board) (time : Nat)

theorem withClock_withClock (other : Nat) :
    (b.withClock time).withClock other = b.withClock other := by
  simp only [withClock, Bytes.store_store]

/-- A board has some time in its clock port. -/
theorem exists_withClock : ∃ time, b = b.withClock time := by
  refine ⟨Bytes.load b.ports clockPort 4, ?_⟩
  rw [withClock, Bytes.store_load]

theorem powerOn_withClock (interval : Word) (wall : Nat) :
    (powerOn interval wall).withClock time = powerOn interval time := by
  simp only [withClock, powerOn, initialPorts]
  rw [Bytes.store_comm _ intervalPort 4 _ clockPort 4 _ (.inr (by decide)), Bytes.store_store]

/-! Past the clock port -/

section Apart

variable {port : Nat} (past : intervalPort ≤ port)
include past

theorem word_withClock : (b.withClock time).word port = b.word port := by
  rw [word, withClock, Bytes.load_store_of_apart _ _ _ _ _ _ (.inl past)]
  rfl

theorem byteAt_withClock : Bytes.byteAt (b.withClock time).ports port = Bytes.byteAt b.ports port := by
  have past : 4 ≤ port := past
  rw [withClock, Bytes.byteAt_store, if_neg fun inside => by simp only [clockPort] at inside; omega]

theorem setByte_clock (ports : ByteArray) (value : UInt8) :
    Bytes.setByte (Bytes.store ports clockPort 4 time) port value =
      Bytes.store (Bytes.setByte ports port value) clockPort 4 time := by
  have single (c : ByteArray) : Bytes.setByte c port value = Bytes.store c port 1 value.toNat := by
    rw [Bytes.store, Bytes.store, UInt8.ofNat_toNat]
  rw [single, single, Bytes.store_comm _ _ _ _ _ _ _ (.inl past)]

end Apart

theorem interval_withClock : (b.withClock time).interval = b.interval :=
  b.word_withClock time (Nat.le_refl intervalPort)

theorem timerPort_past (timer : Fin 4) : intervalPort ≤ timerPort + timer.val :=
  Nat.le_add_right_of_le (by decide)

theorem rearm_withClock (now : Time) (timer : Fin 4) :
    (b.withClock time).rearm now timer = (b.rearm now timer).withClock time := by
  have armed := b.byteAt_withClock time (timerPort_past timer)
  have written (value : UInt8) := setByte_clock time (timerPort_past timer) b.ports value
  rw [rearm, rearm, interval_withClock, armed]
  simp only [withClock, written]

theorem disarm_withClock (timer : Fin 4) :
    (b.withClock time).disarm timer = (b.disarm timer).withClock time := by
  have written := setByte_clock time (timerPort_past timer) b.ports 0
  simp only [disarm, withClock, written]

theorem writePorts_clock (ports : ByteArray) (start : Word) (size : Nat) (buffer : Word) :
    writePorts (Bytes.store ports clockPort 4 time) start size buffer =
      Bytes.store (writePorts ports start size buffer) clockPort 4 time := by
  apply List.foldl_hom (Bytes.store · clockPort 4 time)
  intro ports i
  simp only
  split
  · rename_i writable
    exact setByte_clock time writable.1 ports _
  · rfl

theorem output_withClock (now : Time) (port : Word) (size : Nat) (buffer : Word) :
    (b.withClock time).output now port size buffer =
      (b.output now port size buffer).withClock time := by
  have written : ({ b.withClock time with
      ports := writePorts (b.withClock time).ports port size buffer } : Board) =
        { b with ports := writePorts b.ports port size buffer }.withClock time := by
    simp only [withClock, writePorts_clock]
  have armed (b : Board) :
      (List.finRange 4).foldl (fun b timer =>
          if covers port size (timerPort + timer.val) then b.rearm now timer else b)
          (b.withClock time) =
        ((List.finRange 4).foldl (fun b timer =>
          if covers port size (timerPort + timer.val) then b.rearm now timer else b) b).withClock
            time := by
    apply List.foldl_hom (withClock · time)
    intro b timer
    split
    · exact b.rearm_withClock time now timer
    · rfl
  simp only [output, written, armed]
  generalize List.foldl _ _ (List.finRange 4) = rearmed
  split <;> simp only [withClock]

theorem input_withClock (wall : Nat) {port : Word} (past : intervalPort ≤ port.toNat) :
    (b.withClock time).input wall port =
      ((b.input wall port).1, (b.input wall port).2.withClock time) := by
  have other : port.toNat ≠ clockPort := fun same => by
    rw [same] at past
    exact absurd past (by decide)
  simp only [input, if_neg other, word_withClock b time past]
  split <;> rfl

theorem poll_withClock (now : Time) :
    (b.withClock time).poll now = ((b.poll now).1, (b.poll now).2.withClock time) := by
  rw [poll, poll]
  simp only
  have due : (b.withClock time).isDue now = b.isDue now := by
    funext timer
    simp only [isDue, withClock]
  have disarmed (timers : List (Fin 4)) :
      timers.foldl disarm (b.withClock time) = (timers.foldl disarm b).withClock time :=
    List.foldl_hom (withClock · time) fun b timer => b.disarm_withClock time timer
  rw [due, disarmed]

end ReducedX86.Board
