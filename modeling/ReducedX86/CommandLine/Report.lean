import ReducedX86.Machine
import ReducedX86.Text.Quoted
import ReducedX86.Word.Numeric

/-!
The state that a finished machine is left in, as text: registers, flags and variables, a line
each.
-/
namespace ReducedX86.Machine

variable {δ : Type}

/-- The name of a register in four columns, and its value. -/
def registerLine (m : Machine δ) (r : Register) : String :=
  String.ofList (List.replicate (4 - r.name.length) ' ') ++ r.name ++ " " ++
    (m.processor.reg r).hex 4

def flagsLine (f : Flags) : String :=
  let shown (name : String) (flag : Bool) : String := name ++ "=" ++ toString flag.toNat
  "   " ++ " ".intercalate
    [shown "C" f.carry, shown "Z" f.zero, shown "S" f.sign, shown "O" f.overflow,
     shown "D" f.direction, shown "I" f.interrupt]

/-- The 16-bit units of bytes; an odd byte at the end belongs to none. -/
def unitsOfBytes : List UInt8 → List UInt16
  | low :: high :: rest =>
      UInt16.ofNat (low.toNat + 256 * high.toNat) :: unitsOfBytes rest
  | _ => []

/-- Bytes as the value of a variable. Text ends before its first zero unit. -/
def shownValue (kind : VariableKind) (bytes : List UInt8) : String :=
  match kind with
  | .number =>
      let byte (i : Nat) : UInt8 := bytes[i]?.getD 0
      (Word.ofBytes (byte 0) (byte 1) (byte 2) (byte 3)).hex (min bytes.length 4)
  | .array => " ".intercalate (bytes.map fun b => Word.hexDigits (UInt32.ofNat b.toNat) 1)
  | .string => Text.quoted (Text.ofUnits ((unitsOfBytes bytes).takeWhile (· ≠ 0)))

/-- The line of a variable whose bytes lie in memory. -/
def variableLine? (m : Machine δ) (v : Variable) : Option String :=
  (m.processor.memory.slice? v.address v.size).map fun bytes =>
    v.name ++ " = " ++ shownValue v.kind bytes

def reportLines (m : Machine δ) : List String :=
  Register.owners.map m.registerLine ++ [flagsLine m.processor.flags] ++
    m.table.entries.filterMap m.variableLine?

def report (m : Machine δ) : String := String.join (m.reportLines.map (· ++ "\n"))

end ReducedX86.Machine
