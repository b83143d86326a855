import ReducedX86.Device.Script
import ReducedX86.Proofs.Processor.Step

/-!
The interrupts that a host has requested.

A request that is accepted waits until a step takes it. Steps take one request at a time, the lowest
number first, and only while interrupts are enabled; a request that is repeated while it waits is
still one request. So what waits can be told from the history of requests and deliveries alone.
-/
namespace ReducedX86

variable {δ : Type}

namespace Processor

/-- What happens to the request of an interrupt. -/
inductive RequestEvent
  | accepted (number : UInt8)
  | taken (number : UInt8)
  deriving DecidableEq, Repr

/-- The numbers that wait, as a host is shown them: the highest first. -/
def pendingInterrupts (p : Processor δ) : List UInt8 := p.interruptQueue.reverse

/-- In a history, the latest event first: the number was accepted, and has not been taken since. -/
def Outstanding (history : List RequestEvent) (n : UInt8) : Prop :=
  ∃ later earlier, history = later ++ .accepted n :: earlier ∧ .taken n ∉ later

section Enqueue

variable {n m : UInt8} {queue : List UInt8}

theorem mem_enqueue : m ∈ enqueue n queue ↔ m = n ∨ m ∈ queue := by
  induction queue with
  | nil => simp [enqueue]
  | cons k rest ih =>
      rw [enqueue]
      split
      · simp
      · split
        · rename_i same
          simp [same]
        · simp [ih, or_left_comm]

theorem pairwise_enqueue (sorted : queue.Pairwise (· < ·)) :
    (enqueue n queue).Pairwise (· < ·) := by
  induction queue with
  | nil => simp [enqueue]
  | cons k rest ih =>
      obtain ⟨least, sorted'⟩ := List.pairwise_cons.mp sorted
      rw [enqueue]
      split
      · rename_i below
        refine List.pairwise_cons.mpr ⟨fun m member => ?_, sorted⟩
        rcases List.mem_cons.mp member with rfl | later
        · exact below
        · exact UInt8.lt_trans below (least m later)
      · split
        · exact sorted
        · rename_i above other
          refine List.pairwise_cons.mpr ⟨fun m member => ?_, ih sorted'⟩
          rcases mem_enqueue.mp member with rfl | later
          · exact UInt8.lt_of_le_of_ne (UInt8.not_lt.mp above) (Ne.symm other)
          · exact least m later

theorem enqueue_of_lt (above : ∀ m ∈ queue, m < n) : enqueue n queue = queue ++ [n] := by
  induction queue with
  | nil => rfl
  | cons k rest ih =>
      obtain ⟨here, later⟩ := List.forall_mem_cons.mp above
      rw [enqueue, if_neg (UInt8.not_lt.mpr (UInt8.le_of_lt here)),
        if_neg (UInt8.ne_of_lt here).symm, ih later, List.cons_append]

end Enqueue

theorem not_outstanding_nil (n : UInt8) : ¬ Outstanding [] n := by
  rintro ⟨later, earlier, split, -⟩
  cases later <;> cases split

theorem outstanding_cons {e : RequestEvent} {history : List RequestEvent} {n : UInt8} :
    Outstanding (e :: history) n ↔
      e = .accepted n ∨ e ≠ .taken n ∧ Outstanding history n := by
  constructor
  · rintro ⟨later, earlier, split, untaken⟩
    cases later with
    | nil =>
        cases split
        exact .inl rfl
    | cons e' later =>
        cases split
        obtain ⟨other, untaken⟩ := not_or.mp (mt List.mem_cons.mpr untaken)
        exact .inr ⟨Ne.symm other, later, earlier, rfl, untaken⟩
  · rintro (rfl | ⟨other, later, earlier, rfl, untaken⟩)
    · exact ⟨[], history, rfl, List.not_mem_nil⟩
    · refine ⟨e :: later, earlier, rfl, ?_⟩
      rw [List.mem_cons, not_or]
      exact ⟨Ne.symm other, untaken⟩

/-! What a step does to the requests -/

/-- The requests after a step that begins with these flags and requests. -/
def remainingRequests (p : Processor δ) : List UInt8 :=
  if p.flags.interrupt then p.interruptQueue.tail else p.interruptQueue

theorem interruptQueue_deliver (p : Processor δ) :
    (deliver p).state.interruptQueue = p.remainingRequests := by
  have kept (number : UInt8) (rest : List UInt8) :=
    (Execution.keeps_enterHandler Control.view (UInt32.ofNat number.toNat)).control
      (p.requesting rest)
  have came := delivers p
  generalize deliver p = d at came ⊢
  rw [remainingRequests]
  cases came with
  | idle silent =>
      rcases silent with disabled | empty
      · rw [disabled]
        rfl
      · simp [Delivery.state, empty]
  | @entered number rest q enabled queued ran =>
      have same := congrArg Control.interruptQueue ((kept number rest).of_ok ran)
      rw [enabled, queued]
      exact same
  | @faulted number rest f q enabled queued ran =>
      have same := congrArg Control.interruptQueue ((kept number rest).of_error ran)
      rw [enabled, queued]
      exact same

variable [PortDevice δ]

theorem interruptQueue_stepInstruction (p : Processor δ) :
    (stepInstruction p).2.interruptQueue = p.interruptQueue := by
  have control (i : Instruction) :=
    stepsControl_executeAt p.nextInstruction i (p.jumpTo (p.nextInstruction + 4))
  have came := executes p
  generalize stepInstruction p = r at came ⊢
  cases came with
  | absent => rfl
  | @done i q found ran =>
      have follows := (control i).of_ok ran
      change q.control.interruptQueue = p.control.interruptQueue
      generalize q.control = c at follows ⊢
      cases follows <;> rfl
  | faulted found ran =>
      exact congrArg Control.interruptQueue ((control _).of_error ran)

/-- A step takes the next request if interrupts are enabled, and leaves the others. -/
theorem interruptQueue_step (stepping : Bool) (p : Processor δ) :
    (step stepping p).2.interruptQueue = p.remainingRequests := by
  have delivered : (deliver p.syncEip).state.interruptQueue = p.remainingRequests :=
    interruptQueue_deliver p.syncEip
  refine step_preserves (P := fun q => q.interruptQueue = p.remainingRequests) stepping
    delivered ?_
  intro q same
  exact (interruptQueue_stepInstruction q).trans same

/-- The numbers that wait before a step and no longer after it. -/
def takenBy (stepping : Bool) (p : Processor δ) : List UInt8 :=
  p.pendingInterrupts.filter (· ∉ (step stepping p).2.pendingInterrupts)

/-- What a host can bring about without a reset, with the history of its requests. -/
inductive Requested : Processor δ → List RequestEvent → Prop
  | silent {p : Processor δ} : p.interruptQueue = [] → Requested p []
  | accepted {p q : Processor δ} {history : List RequestEvent} {number : Word} :
      Requested p history → p.queueInterrupt number = some q →
      Requested q (.accepted (UInt8.ofNat number.toNat) :: history)
  | step {p : Processor δ} {history : List RequestEvent} (stepping : Bool) :
      Requested p history →
      Requested (step stepping p).2 ((p.takenBy stepping).map .taken ++ history)
  /-- whatever else a host does, as long as it leaves the requests alone -/
  | touched {p q : Processor δ} {history : List RequestEvent} :
      Requested p history → q.interruptQueue = p.interruptQueue → Requested q history

/-- What is known of the requests that wait, by their history. -/
structure Accounted (p : Processor δ) (history : List RequestEvent) : Prop where
  sorted : p.interruptQueue.Pairwise (· < ·)
  external : ∀ n ∈ p.interruptQueue, 32 ≤ n
  outstanding : ∀ n, n ∈ p.interruptQueue ↔ Outstanding history n

omit [PortDevice δ] in
theorem queueInterrupt_eq_some {p q : Processor δ} {number : Word}
    (accepted : p.queueInterrupt number = some q) :
    (32 ≤ number ∧ number ≤ 255) ∧
      q.interruptQueue = enqueue (UInt8.ofNat number.toNat) p.interruptQueue := by
  rw [queueInterrupt] at accepted
  split at accepted
  · rename_i admitted
    cases accepted
    exact ⟨admitted, rfl⟩
  · cases accepted

/-- A device may request what a host may, and is understood. -/
theorem requestable_of_external {number : UInt8} (external : 32 ≤ number) :
    (32 ≤ UInt32.ofNat number.toNat ∧ UInt32.ofNat number.toNat ≤ 255) ∧
      UInt8.ofNat (UInt32.ofNat number.toNat).toNat = number := by
  have same : (UInt32.ofNat number.toNat).toNat = number.toNat :=
    UInt32.toNat_ofNat_of_lt' (Nat.lt_trans number.toNat_lt (by decide))
  simp only [UInt32.le_iff_toNat_le, same, UInt8.ofNat_toNat, and_true]
  exact ⟨UInt8.le_iff_toNat_le.mp external, Nat.le_of_lt_succ number.toNat_lt⟩

omit [PortDevice δ] in
theorem Accounted.accepted {p q : Processor δ} {history : List RequestEvent} {number : Word}
    (accounted : p.Accounted history) (accepted : p.queueInterrupt number = some q) :
    q.Accounted (.accepted (UInt8.ofNat number.toNat) :: history) := by
  obtain ⟨⟨low, high⟩, queue⟩ := queueInterrupt_eq_some accepted
  have external : 32 ≤ UInt8.ofNat number.toNat := by
    rw [UInt8.le_iff_toNat_le, UInt8.toNat_ofNat']
    rw [UInt32.le_iff_toNat_le] at low high
    have : number.toNat % 2 ^ 8 = number.toNat := Nat.mod_eq_of_lt (Nat.lt_succ_of_le high)
    rw [this]
    exact low
  constructor
  · rw [queue]
    exact pairwise_enqueue accounted.sorted
  · intro n waits
    rw [queue, mem_enqueue] at waits
    rcases waits with rfl | waited
    · exact external
    · exact accounted.external n waited
  · intro n
    rw [queue, mem_enqueue, outstanding_cons, accounted.outstanding]
    simp [eq_comm]

/-- What a step takes is the lowest number, if interrupts are enabled and there is one. -/
theorem takenBy_eq {p : Processor δ} (sorted : p.interruptQueue.Pairwise (· < ·))
    (stepping : Bool) :
    p.takenBy stepping = if p.flags.interrupt then p.interruptQueue.head?.toList else [] := by
  rw [takenBy, pendingInterrupts, pendingInterrupts, interruptQueue_step, remainingRequests,
    List.filter_reverse]
  simp only [List.mem_reverse]
  split
  · cases queued : p.interruptQueue with
    | nil => rfl
    | cons n rest =>
        rw [queued] at sorted
        obtain ⟨least, -⟩ := List.pairwise_cons.mp sorted
        have fresh : n ∉ rest := fun again => UInt8.lt_irrefl n (least n again)
        rw [List.head?_cons, Option.toList_some, List.tail_cons, List.filter_cons_of_pos (by simpa),
          List.filter_eq_nil_iff.mpr (by simp)]
        rfl
  · simp

theorem Accounted.step {p : Processor δ} {history : List RequestEvent}
    (accounted : p.Accounted history) (stepping : Bool) :
    (step stepping p).2.Accounted ((p.takenBy stepping).map .taken ++ history) := by
  obtain ⟨sorted, external, outstanding⟩ := accounted
  have queue := interruptQueue_step stepping p
  rw [takenBy_eq sorted]
  rw [remainingRequests] at queue
  split at queue
  · rename_i enabled
    rw [if_pos enabled]
    cases queued : p.interruptQueue with
    | nil =>
        rw [queued] at queue
        exact ⟨by simp [queue], by simp [queue], by simpa [queue, queued] using outstanding⟩
    | cons n rest =>
        rw [queued] at queue sorted external
        rw [List.tail_cons] at queue
        obtain ⟨least, sorted'⟩ := List.pairwise_cons.mp sorted
        refine ⟨by rwa [queue], fun m waits => ?_, fun m => ?_⟩
        · rw [queue] at waits
          exact external m (List.mem_cons_of_mem n waits)
        · have waited := outstanding m
          rw [queued, List.mem_cons] at waited
          simp only [List.head?_cons, Option.toList_some, List.map_cons, List.map_nil,
            List.cons_append, List.nil_append]
          rw [queue, outstanding_cons, ← waited]
          have fresh (waits : m ∈ rest) : m ≠ n := (UInt8.ne_of_lt (least m waits)).symm
          grind
  · rename_i disabled
    rw [if_neg disabled]
    exact ⟨by rwa [queue], by rwa [queue], by rwa [queue]⟩

theorem Requested.accounted {p : Processor δ} {history : List RequestEvent}
    (requested : p.Requested history) : p.Accounted history := by
  induction requested with
  | silent empty =>
      refine ⟨by simp [empty], by simp [empty], fun n => ?_⟩
      simp [empty, not_outstanding_nil]
  | accepted _ accepted ih => exact ih.accepted accepted
  | step stepping _ ih => exact ih.step stepping
  | touched _ same ih =>
      obtain ⟨sorted, external, outstanding⟩ := ih
      exact ⟨by rwa [same], by rwa [same], by rwa [same]⟩

/-- Requests are neither lost nor doubled nor taken out of order. The numbers that wait descend and
are those last accepted since they were last taken; requests are accepted for 32 to 255; and a step
takes one number, the lowest, exactly when interrupts are enabled and one waits. -/
theorem requests_accounted {p : Processor δ} {history : List RequestEvent}
    (requested : p.Requested history) :
    (p.pendingInterrupts.Pairwise (· > ·) ∧
      ∀ n ∈ p.pendingInterrupts, 32 ≤ n.toNat ∧ n.toNat ≤ 255) ∧
    (∀ n, n ∈ p.pendingInterrupts ↔ Outstanding history n) ∧
    (∀ number, (p.queueInterrupt number).isSome ↔ 32 ≤ number ∧ number ≤ 255) ∧
    ∀ stepping,
      (p.takenBy stepping ≠ [] ↔ p.flags.interrupt ∧ p.pendingInterrupts ≠ []) ∧
      (∀ n ∈ p.takenBy stepping, p.takenBy stepping = [n] ∧ (∀ m ∈ p.pendingInterrupts, n ≤ m) ∧
        p.pendingInterrupts = (step stepping p).2.pendingInterrupts ++ [n]) ∧
      (p.takenBy stepping = [] →
        (step stepping p).2.pendingInterrupts = p.pendingInterrupts) := by
  obtain ⟨sorted, external, outstanding⟩ := requested.accounted
  refine ⟨⟨?_, ?_⟩, ?_, ?_, fun stepping => ?_⟩
  · rw [pendingInterrupts, List.pairwise_reverse]
    exact sorted
  · intro n waits
    have low := external n (List.mem_reverse.mp waits)
    exact ⟨UInt8.le_iff_toNat_le.mp low, Nat.le_of_lt_succ n.toNat_lt⟩
  · intro n
    rw [pendingInterrupts, List.mem_reverse, outstanding]
  · intro number
    rw [queueInterrupt]
    split <;> simp_all
  · have queue := interruptQueue_step stepping p
    rw [takenBy_eq sorted, pendingInterrupts, pendingInterrupts, queue, remainingRequests]
    cases enabled : p.flags.interrupt with
    | false => simp
    | true =>
        cases queued : p.interruptQueue with
        | nil => simp
        | cons n rest =>
            rw [queued] at sorted
            obtain ⟨least, -⟩ := List.pairwise_cons.mp sorted
            have lowest (m : UInt8) (waits : m ∈ rest ∨ m = n) : n ≤ m := by
              rcases waits with later | rfl
              · exact UInt8.le_of_lt (least m later)
              · exact UInt8.le_refl m
            simpa using lowest

/-- Of two requests the lower one is taken, and the other still waits. -/
theorem requests_accounted_two :
    let fresh : Processor Script := Processor.new 16 {} default
    let once := (fresh.queueInterrupt 40).getD fresh
    let twice := (once.queueInterrupt 33).getD once
    let p := twice.withFlags { twice.flags with interrupt := true }
    let history : List RequestEvent := [.taken 33, .accepted 33, .accepted 40]
    (step false p).2.Requested history ∧ (step false p).2.pendingInterrupts = [40] ∧
      (∀ n, n ∈ (step false p).2.pendingInterrupts ↔ Outstanding history n) := by
  intro fresh once twice p history
  -- For any processor, so that these processors are not computed.
  have accepts (q : Processor Script) {number : Word} (admitted : 32 ≤ number ∧ number ≤ 255) :
      q.queueInterrupt number = some ((q.queueInterrupt number).getD q) := by
    rw [queueInterrupt, if_pos admitted]
    rfl
  have touches (q : Processor Script) (f : Flags) :
      (q.withFlags f).interruptQueue = q.interruptQueue := rfl
  have first : fresh.queueInterrupt 40 = some once := accepts fresh (by decide)
  have second : once.queueInterrupt 33 = some twice := accepts once (by decide)
  have same : p.interruptQueue = twice.interruptQueue := touches twice _
  have waits := ((Requested.silent rfl).accepted first).accepted second
  have requested := (waits.touched same).step false
  have taken : p.takenBy false = [33] := by decide +kernel
  rw [taken] at requested
  exact ⟨requested, by decide +kernel, (requests_accounted requested).2.1⟩

end Processor

end ReducedX86
