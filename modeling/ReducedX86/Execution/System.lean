import ReducedX86.Execution.Blocks

/-!
Single flags, sign fills, the handler table, random numbers, and saved states.
-/
namespace ReducedX86.Execution

variable {δ : Type}

/-- Copies the sign of the accumulator into every bit of the high half. -/
def fillHigh (low high : Register) : Execution δ Unit := do
  let negative := (← reg low).negative low.size
  discard <| setReg high (if negative then 0xFFFFFFFF else 0)

def draw : Execution δ Word := modifyGet fun p => (p.draws.head, { p with draws := p.draws.tail })

/-- Draws a random number; carry tells that there was one, and the other results are clear. -/
def random (dst : Operand) : Execution δ Unit := do
  setFlags fun f => { f with carry := true, overflow := false, zero := false, sign := false }
  discard <| write dst (← draw)

def system (op : SystemOp) : Operands → Execution δ Unit := fun operands =>
  match op, operands with
  | .nop, _ => pure ()
  | .clc, _ => setFlags fun f => { f with carry := false }
  | .stc, _ => setFlags fun f => { f with carry := true }
  | .cmc, _ => setFlags fun f => { f with carry := !f.carry }
  | .cld, _ => setFlags fun f => { f with direction := false }
  | .std, _ => setFlags fun f => { f with direction := true }
  | .cli, _ => setFlags fun f => { f with interrupt := false }
  | .sti, _ => setFlags fun f => { f with interrupt := true }
  | .cwd, _ => fillHigh .ax .dx
  | .cdq, _ => fillHigh .eax .edx
  | .lidt, (some src, _) => do
      let table ← read src
      modify fun p => { p with handlerTable := table }
  | .sidt, (some dst, _) => do discard <| write dst (← get).handlerTable
  | .rdrand, (some dst, _) => random dst
  | .xsave, (some (.memory m), _) => saveState m
  | .xrstor, (some (.memory m), _) => restoreState m
  | _, _ => pure ()

end ReducedX86.Execution
