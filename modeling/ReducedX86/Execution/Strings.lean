import ReducedX86.Processor

/-!
String instructions: one element at `[esi]` or `[edi]`, whose pointer moves once the element has
been transferred.
-/
namespace ReducedX86.Execution

variable {δ : Type}

def string (op : StringOp) (w : Width) : Execution δ Unit := do
  let size := w.bytes
  match op with
  | .stos =>
      writeMemory (← reg .edi) (← reg (.accumulator size)) size
      advance .edi size
  | .lods =>
      let value ← readMemory (← reg .esi) size
      discard <| setReg (.accumulator size) value
      advance .esi size
  | .movs =>
      let value ← readMemory (← reg .esi) size
      writeMemory (← reg .edi) value size
      advance .esi size
      advance .edi size

end ReducedX86.Execution
