import ReducedX86.Machine.Observers
import ReducedX86.Processor.Step
import ReducedX86.Settings

/-!
A machine: a processor with its variables and program, driven by a host.

The host declares variables, assembles, runs, steps, stops and resets; it requests interrupts,
completes transfers and passes on the time. A run takes one batch of steps, and if its time slice
is used up it waits for a `tick` at its resume time. What the clock shows each time it is read is
laid down in advance. A batch whose slice is never used up need not end, and then the call that it
is part of does not return; `patience` bounds how long it is followed.
-/
namespace ReducedX86

inductive MachineError
  | notCompiled
  | busy
  | halted
  | noPendingTransfer
  | interruptOutOfRange (number : Word)
  | runtime (fault : Fault)
  | assembly (error : AssemblyError)
  | declaration (error : VariableError)
  deriving DecidableEq, Repr, Inhabited

def MachineError.message : MachineError → String
  | notCompiled => "no program is compiled"
  | busy => "the machine is running or waiting"
  | halted => "the machine is halted"
  | noPendingTransfer => "no IO operation is pending"
  | interruptOutOfRange number =>
      "interrupt " ++ toString number.toNat ++ " is out of range (32-255)"
  | runtime fault => fault.message
  | assembly error => error.message
  | declaration error => error.message

structure Machine (δ : Type) where
  processor : Processor δ
  settings : Settings
  table : VariableTable := {}
  artifacts : Artifacts := {}
  observers : Observers := {}
  compiled : Bool := false
  running : Bool := false
  /-- a single step halted or waits for a transfer, and finishes when that ends -/
  stepPending : Bool := false
  /-- a run halted or waits for a transfer, and goes on when that ends -/
  continues : Bool := false
  /-- when a run that used up its time slice goes on -/
  resumeAt : Option Time := none
  /-- what the clocks will show, reading by reading -/
  clock : Feed Reading := default
  /-- how many turns of its loop a batch may take to return -/
  patience : Nat := 0

/-- A call on a machine, which may be refused or fail. A call that has not returned has no
result. -/
abbrev MachineCall (δ α : Type) := ExceptT MachineError (StateT (Machine δ) Option) α

namespace MachineCall

variable {δ α : Type}

/-- Makes the call: what it answers, and the machine that it leaves. -/
def on (x : MachineCall δ α) (m : Machine δ) : Option (Except MachineError α × Machine δ) :=
  x.run.run m

/-- The call that changes the machine as `f` says, if that returns. -/
def change (f : Machine δ → Option (Machine δ)) : MachineCall δ Unit :=
  ExceptT.mk fun m => (f m).map fun m' => (.ok (), m')

end MachineCall

namespace Machine

variable {δ : Type}

def new (settings : Settings) (device : δ) (draws : Feed Word) :
    Except SettingsError (Machine δ) :=
  match settings.validate with
  | .error e => .error e
  | .ok () => .ok { processor := Processor.new settings.memorySize device draws, settings }

/-- The machine with a clock to read and a host of some patience. -/
def attended (m : Machine δ) (clock : Feed Reading) (patience : Nat) : Machine δ :=
  { m with clock, patience }

/-- Reads the clock. -/
def tock (m : Machine δ) : Machine δ :=
  { m with processor := { m.processor with now := m.clock.head }, clock := m.clock.tail }

def isHalted (m : Machine δ) : Bool := m.processor.halted

def hasPendingTransfer (m : Machine δ) : Bool := m.processor.pendingTransfer.isSome

def isRunningOrWaiting (m : Machine δ) : Bool :=
  m.running || m.isHalted || m.hasPendingTransfer

def notify (m : Machine δ) (n : Notification) : Machine δ :=
  { m with observers := m.observers.notify n }

def status (m : Machine δ) : RunStatus :=
  { halted := m.isHalted
    pendingTransfer := m.hasPendingTransfer
    faulted := m.processor.fault.isSome }

/-- Reports the faults that were recorded since the last report. -/
def reportFaults (m : Machine δ) : Machine δ :=
  let (faults, processor) := m.processor.takeFaults
  faults.foldl (fun m f => m.notify (.runtimeFault f)) { m with processor }

/-- Ends the halt of a breakpoint. -/
def clearDebugRequest (m : Machine δ) : Machine δ :=
  if m.processor.debugRequest then
    { m with processor := { m.processor with halted := false, debugRequest := false } }
  else m

def lineOf? (m : Machine δ) (address : Word) : Option Nat :=
  m.artifacts.addressToLine.lookup address

def requireIdle : MachineCall δ Unit := do
  if (← get).isRunningOrWaiting then throw .busy

def requireCompiled : MachineCall δ Unit := do
  if !(← get).compiled then throw .notCompiled

def addVariable (d : Declaration) : MachineCall δ Unit := do
  requireIdle
  modify fun m => { m with compiled := false }
  let m ← get
  match m.table.add d m.processor.memory.size with
  | .ok (v, table) =>
      modify fun m => { m with table }.notify (.variableAdded v)
  | .error e =>
      modify (·.notify (.variableRefused e))
      throw (.declaration e)

/-- Declares variables up to the first that is refused. -/
def addVariables : List Declaration → MachineCall δ Unit
  | [] => pure ()
  | d :: rest => do
      addVariable d
      addVariables rest

/-- Removes a variable; false tells that there was none of the name. -/
def removeVariable (name : String) : MachineCall δ Bool := do
  requireIdle
  modify fun m => { m with compiled := false }
  let (removed, table) := (← get).table.remove name
  match removed with
  | some v =>
      modify fun m => { m with table }.notify (.variableRemoved v)
      return true
  | none => return false

variable [PortDevice δ]

/-- The earliest moment at which a tick has something to do. -/
def nextWakeup (m : Machine δ) : Option Time :=
  match m.resumeAt, PortDevice.nextDeadline m.processor.device with
  | some a, some b => some (min a b)
  | some a, none => some a
  | none, b => b

/-- Goes back to the first instruction with fresh memory, variables, registers and device. True
tells that the machine was running or waiting. -/
def reset (m : Machine δ) : Bool × Machine δ :=
  let wasActive := m.isRunningOrWaiting
  let wasStep := m.stepPending
  let cleared := m.processor.resetExecution.resetMemory
  let processor :=
    { cleared with memory := m.table.fill cleared.memory }.resetRegisters
  let idle : Machine δ :=
    { m with
      processor
      running := false
      stepPending := false
      continues := false
      resumeAt := none }
  let ended : RunStatus := { reset := true }
  let told :=
    if wasActive then
      idle.notify (if wasStep then .stepFinished ended else .stoppedRunning ended)
    else idle
  let told := (told.notify .reset).tock
  let device := PortDevice.reset told.processor.device told.processor.now
  (wasActive, { told with processor := { told.processor with device } })

/-- Resets the machine if the program asked for it. -/
def takeResetRequest (m : Machine δ) : Bool × Machine δ :=
  let (requested, device) := PortDevice.takeResetRequest m.processor.device
  let m := { m with processor := { m.processor with device } }
  if requested then (true, m.reset.2) else (false, m)

/-- Assembles a source text; the machine is then reset and ready to run. -/
def assemble (source : String) : MachineCall δ Unit := do
  requireIdle
  modify fun m => { m with compiled := false, processor := m.processor.load #[] }
  let m ← get
  let (result, table) := Program.assembleIn source m.table m.processor.memory.size
  modify fun m => { m with table }
  match result with
  | .ok program =>
      modify fun m =>
        let loaded : Machine δ :=
          { m with
            processor := m.processor.load program.instructions
            artifacts := program.artifacts
            compiled := true }
        loaded.reset.2.notify (.assemblyFinished false)
  | .error e =>
      modify fun m => (m.notify (.assemblyFailed e)).notify (.assemblyFinished true)
      throw (.assembly e)

/-- Ends a run that did not yield. -/
def finishRun (m : Machine δ) : Machine δ :=
  let m := m.clearDebugRequest
  let waits := m.isHalted || m.hasPendingTransfer
  let m :=
    { m with
      running := false
      stepPending := false
      continues := waits && m.processor.fault.isNone }
  m.notify (.stoppedRunning m.status)

/-- What a turn of the loop of a batch comes to. -/
inductive Turn (δ : Type)
  /-- the batch is over -/
  | finished (m : Machine δ)
  /-- the batch goes on, `count` steps after its last look at the clock -/
  | next (count : Word) (m : Machine δ)

/-- Takes one step of a batch, which is over if the program asked for a reset. -/
def takeStep (count : Word) (m : Machine δ) : Turn δ :=
  let stepped := { m with processor := (m.processor.step false).2 }.reportFaults
  match stepped.takeResetRequest with
  | (true, m') => .finished m'
  | (false, m') => .next count m'

/-- Counts the next step of a batch that started at `started`; the counter wraps. When it is past
`stepsPerCheck` there is a look at the clock instead, and nothing to go on with if the time slice
is used up. -/
def look (started : Time) (count : Word) (m : Machine δ) : Option (Word × Machine δ) :=
  if count + 1 ≤ m.settings.stepsPerCheck then some (count + 1, m)
  else
    let m := m.tock
    if milliseconds m.settings.timeSlice < m.processor.now.instant - started then none
    else some (0, m)

/-- Gives a run that could go on a time to do so. -/
def pause (m : Machine δ) : Machine δ :=
  let m := m.tock
  let resumeAt := m.processor.now.instant + milliseconds m.settings.resumeDelay
  { m with resumeAt := some resumeAt }

/-- One turn of the loop of a batch that started at `started`. -/
def turn (started : Time) (count : Word) (m : Machine δ) : Turn δ :=
  if !m.processor.canContinue then .finished m.finishRun
  else match m.look started count with
    | none => .finished m.tock.pause
    | some (count', m') => m'.tock.takeStep count'

/-- Takes turns until the batch is over, if `turns` are enough for that. -/
def runTurns (started : Time) : (turns : Nat) → (count : Word) → Machine δ → Option (Machine δ)
  | 0, _, _ => none
  | turns + 1, count, m =>
      match m.turn started count with
      | .finished m' => some m'
      | .next count' m' => runTurns started turns count' m'

/-- The machine at the start of a batch. -/
def launched (m : Machine δ) : Machine δ :=
  let started :=
    { m with
      running := true
      stepPending := false
      continues := false
      resumeAt := none
      processor := { m.processor with fault := none } }
  (if m.running then started else started.notify .startedRunning).tock

def runBatch (m : Machine δ) : Option (Machine δ) :=
  runTurns m.launched.processor.now.instant m.patience 0 m.launched

def run : MachineCall δ Unit := do
  requireCompiled
  requireIdle
  .change runBatch

/-- The machine at the start of a single step. -/
def poised (m : Machine δ) : Machine δ :=
  { m with
    running := true
    stepPending := false
    continues := false
    processor := { m.processor with fault := none } }.tock

/-- The machine when a single step has finished, or waits for what the host has to end. -/
def finishStep (m : Machine δ) : Machine δ :=
  let m := m.clearDebugRequest
  let m := { m with stepPending := m.isHalted || m.hasPendingTransfer }
  m.notify (.stepFinished m.status)

/-- Runs one instruction, or delivers one interrupt. -/
def stepOnce (m : Machine δ) : Machine δ :=
  let m := m.poised
  let stepped := { m with processor := (m.processor.step true).2 }.reportFaults
  match { stepped with running := false }.takeResetRequest with
  | (true, m') => m'
  | (false, m') => m'.finishStep

def step : MachineCall δ Unit := do
  requireCompiled
  requireIdle
  modify stepOnce

/-- Ends a run between two batches. -/
def stop : MachineCall δ Unit := do
  requireCompiled
  let m ← get
  if m.isHalted then throw .halted
  if m.hasPendingTransfer then throw .busy
  if m.running then
    modify fun m =>
      let m :=
        { m with running := false, stepPending := false, continues := false, resumeAt := none }
      m.notify (.stoppedRunning { m.status with stopCalled := true })

/-- Lets a halt end after an interrupt was requested: a step finishes, a run goes on. -/
def wake (m : Machine δ) : Option (Machine δ) :=
  if m.hasPendingTransfer then some m
  else if m.stepPending then
    some ({ m with stepPending := false, continues := false }.notify (.stepFinished {}))
  else if m.continues then
    let m := { m with continues := false }
    if m.running then some m else m.runBatch
  else some m

/-- Requests an interrupt with a number from 32 to 255. -/
def requestInterrupt (number : Word) : MachineCall δ Unit := do
  match (← get).processor.queueInterrupt number with
  | none => throw (.interruptOutOfRange number)
  | some processor => .change fun m => { m with processor }.wake

/-- The rest of a completion, which ends a step or a run, or lets a run go on. -/
def afterResume (m : Machine δ) : Option (Machine δ) :=
  if m.stepPending then
    let m := { m with stepPending := false, continues := false }
    some (m.notify (.stepFinished m.status))
  else if m.processor.fault.isSome then
    let m := { m with continues := false }
    some (m.notify (.stoppedRunning m.status))
  else if m.continues then m.runBatch
  else some m

/-- Completes the pending transfer with the exchange buffer. -/
def resumeTransfer : MachineCall δ Unit := do
  let m ← get
  if !m.hasPendingTransfer then throw .noPendingTransfer
  let (result, processor) := m.processor.resumeTransfer
  MachineCall.change fun m => { m with processor }.reportFaults.afterResume
  match result with
  | .error f => throw (.runtime f)
  | .ok _ => pure ()

/-- Requests the interrupts of devices; refused ones are dropped. -/
def requestAll (m : Machine δ) : List UInt8 → Option (Machine δ)
  | [] => some m
  | number :: rest => do
      let (_, m') ← (requestInterrupt (UInt32.ofNat number.toNat)).on m
      requestAll m' rest

/-- Lets a run go on whose time has come. -/
def goOn (m : Machine δ) (now : Time) : Option (Machine δ) :=
  if m.resumeAt.any (· ≤ now) then
    let m := { m with resumeAt := none }
    if m.running && !m.isHalted && !m.hasPendingTransfer then m.runBatch else some m
  else some m

/-- Lets time take effect: timers that are due, a requested reset, a run whose time has come. -/
def tick (m : Machine δ) (now : Time) : Option (Machine δ) := do
  let (due, device) := PortDevice.poll m.processor.device now
  let m ← requestAll { m with processor := { m.processor with device } } due
  goOn m.takeResetRequest.2 now

end Machine

end ReducedX86
