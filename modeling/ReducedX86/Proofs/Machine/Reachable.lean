import ReducedX86.Proofs.Machine.Calls

/-!
The machines that a host can bring about.

A host starts with a new machine and makes calls in any order, whatever they answer, each when the
one before has returned. What the clocks show during a call may be anything, and so may the random
numbers.
-/
namespace ReducedX86

namespace Machine

variable {δ : Type}

/-- The machine after a call, also when the call was refused or failed. -/
def after {α : Type} (x : MachineCall δ α) (m : Machine δ) : Option (Machine δ) :=
  (x.on m).map (·.2)

/-- What holds of the machine after a call holds however the call ended. -/
theorem leads_after {α : Type} {x : MachineCall δ α} {m : Machine δ} {P : Machine δ → Prop}
    {hung : Prop} (h : Ends x (fun _ m' => P m') (fun _ m' => P m') hung m) :
    Leads (after x m) P hung := by
  rw [after, leads_map]
  apply Leads.mono h
  · rintro ⟨a | e, m'⟩ holds <;> exact holds
  · exact id

theorem after_eq_of_ends {α : Type} {x : MachineCall δ α} {m : Machine δ}
    {result : Option (Machine δ)}
    (ends : Ends x (fun _ m' => result = some m') (fun _ m' => result = some m') (result = none) m) :
    after x m = result := by
  have leads := leads_after ends
  cases ran : after x m with
  | none =>
      rw [ran] at leads
      exact leads.symm
  | some m' =>
      rw [ran] at leads
      exact leads.symm

/-! What notifications leave alone -/

theorem reportFaults_eq (m : Machine δ) :
    ∃ observers, m.reportFaults =
      { m with processor := { m.processor with faultLog := [] }, observers } := by
  have told (faults : List Fault) (m : Machine δ) :
      ∃ observers, faults.foldl (fun m f => m.notify (.runtimeFault f)) m =
        { m with observers } := by
    induction faults generalizing m with
    | nil => exact ⟨m.observers, rfl⟩
    | cons f rest ih =>
        obtain ⟨observers, eq⟩ := ih (m.notify (.runtimeFault f))
        exact ⟨observers, eq⟩
  exact told _ _

/-- What a host can ask of a machine that changes it. -/
inductive Call
  | addVariable (d : Declaration)
  | addVariables (ds : List Declaration)
  | removeVariable (name : String)
  | assemble (source : String)
  | run
  | step
  | stop
  | reset
  | requestInterrupt (number : Word)
  | resumeTransfer
  | tick (now : Time)
  /-- writes the exchange buffer -/
  | setBuffer (value : Word)
  | attach
  | detach (number : Nat)

variable [PortDevice δ]

/-- The machine that a call leaves, if the call returns. -/
def perform (m : Machine δ) : Call → Option (Machine δ)
  | .addVariable d => after (addVariable d) m
  | .addVariables ds => after (addVariables ds) m
  | .removeVariable name => after (removeVariable name) m
  | .assemble source => after (assemble source) m
  | .run => after run m
  | .step => after step m
  | .stop => after stop m
  | .reset => some m.reset.2
  | .requestInterrupt number => after (requestInterrupt number) m
  | .resumeTransfer => after resumeTransfer m
  | .tick now => m.tick now
  | .setBuffer value => some { m with processor := { m.processor with buffer := value } }
  | .attach => some { m with observers := m.observers.attach.2 }
  | .detach number => some { m with observers := (m.observers.detach number).2 }

theorem after_run (m : Machine δ) :
    after run m = if m.compiled && !m.isRunningOrWaiting then m.runBatch else some m := by
  apply after_eq_of_ends
  rw [ends_run]
  refine ⟨fun missing => ?_, fun compiled => ⟨fun busy => ?_, fun quiet => ?_⟩⟩
  · rw [missing]
    rfl
  · rw [compiled, busy]
    rfl
  · rw [compiled, quiet]
    exact leads_self _

theorem after_step (m : Machine δ) :
    after step m = some (if m.compiled && !m.isRunningOrWaiting then m.stepOnce else m) := by
  apply after_eq_of_ends
  rw [ends_step]
  refine ⟨fun missing => ?_, fun compiled => ⟨fun busy => ?_, fun quiet => ?_⟩⟩
  · rw [missing]
    rfl
  · rw [compiled, busy]
    rfl
  · rw [compiled, quiet]
    rfl

theorem after_requestInterrupt (number : Word) (m : Machine δ) :
    after (requestInterrupt number) m =
      if 32 ≤ number ∧ number ≤ 255 then (m.requested number).wake else some m := by
  apply after_eq_of_ends
  rw [ends_requestInterrupt]
  refine ⟨fun illegal => if_neg illegal ▸ rfl, fun legal => ?_⟩
  rw [if_pos legal]
  exact leads_self _

inductive Reachable : Machine δ → Prop
  | new {settings : Settings} {device : δ} {draws : Feed Word} {m : Machine δ} :
      Machine.new settings device draws = .ok m → Reachable m
  | call {m m' : Machine δ} (c : Call) : Reachable m → m.perform c = some m' → Reachable m'
  | attended {m : Machine δ} (clock : Feed Reading) (patience : Nat) :
      Reachable m → Reachable (m.attended clock patience)

omit [PortDevice δ] in
/-- A new machine is what it was made of, and otherwise blank. -/
theorem eq_of_new {settings : Settings} {device : δ} {draws : Feed Word} {m : Machine δ}
    (made : Machine.new settings device draws = .ok m) :
    m = { processor := .new settings.memorySize device draws, settings } := by
  rw [Machine.new] at made
  split at made
  · cases made
  · exact (Except.ok.inj made).symm

theorem takeResetRequest_eq (m : Machine δ) :
    (∃ m' : Machine δ, m.takeResetRequest = (true, m'.reset.2)) ∨
      ∃ device, m.takeResetRequest =
        (false, { m with processor := { m.processor with device } }) := by
  rw [takeResetRequest]
  cases requested : PortDevice.takeResetRequest m.processor.device with
  | mk asked device =>
      cases asked with
      | true => exact .inl ⟨_, rfl⟩
      | false => exact .inr ⟨device, rfl⟩

/-! Single steps -/

/-- The machine after a step of its processor, when `observers` have been told its faults. -/
def advanced (m : Machine δ) (stepping running : Bool) (observers : Observers) : Machine δ :=
  { m with
    processor := { (m.processor.step stepping).2 with faultLog := [] }
    running
    observers }

theorem reportFaults_advanced (m : Machine δ) (stepping : Bool) :
    ∃ observers, { m with processor := (m.processor.step stepping).2 }.reportFaults =
      m.advanced stepping m.running observers :=
  reportFaults_eq _

theorem stepOnce_eq {m : Machine δ} {observers : Observers}
    (told : { m.poised with processor := (m.poised.processor.step true).2 }.reportFaults =
      m.poised.advanced true true observers) :
    m.stepOnce =
      match (m.poised.advanced true false observers).takeResetRequest with
      | (true, m') => m'
      | (false, m') => m'.finishStep := by
  rw [stepOnce]
  simp only [told]
  rfl

/-! Ticks -/

/-- The machine at a tick, when its device has been looked at. -/
def polled (m : Machine δ) (now : Time) : Machine δ :=
  { m with processor := { m.processor with device := (PortDevice.poll m.processor.device now).2 } }

theorem tick_eq (m : Machine δ) (now : Time) :
    m.tick now =
      (requestAll (m.polled now) (PortDevice.poll m.processor.device now).1).bind fun m' =>
        m'.takeResetRequest.2.goOn now := rfl

theorem requestAll_cons (number : UInt8) (rest : List UInt8) (m : Machine δ) :
    requestAll m (number :: rest) =
      (after (requestInterrupt (UInt32.ofNat number.toNat)) m).bind (requestAll · rest) := by
  rw [requestAll, after]
  cases (requestInterrupt (UInt32.ofNat number.toNat)).on m <;> rfl

end Machine

end ReducedX86
