import ReducedX86.Device

/-!
A device whose answers are laid down in advance.

Each input request takes the next entry of one list and each output request the next of another;
a request past the end is refused. Every request is recorded.
-/
namespace ReducedX86

inductive Exchange
  | input (port : Word) (size : Nat)
  | output (port : Word) (size : Nat) (buffer : Word) (accepted : Bool)
  deriving DecidableEq, Repr, Inhabited

structure Script where
  /-- the values of the inputs to come; `none` refuses one -/
  inputs : List (Option Word) := []
  /-- whether the outputs to come are accepted -/
  outputs : List Bool := []
  /-- the requests so far, the latest first -/
  seen : List Exchange := []
  deriving DecidableEq, Repr, Inhabited

instance : PortDevice Script where
  input s _ port size buffer :=
    let s' := { s with inputs := s.inputs.tail, seen := .input port size :: s.seen }
    match s.inputs.head? with
    | some (some value) => (true, value, s')
    | _ => (false, buffer, s')
  output s _ port size buffer :=
    let accepted := s.outputs.headD false
    (accepted,
      { s with
        outputs := s.outputs.tail
        seen := .output port size buffer accepted :: s.seen })

end ReducedX86
