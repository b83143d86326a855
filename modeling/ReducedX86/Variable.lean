import ReducedX86.Memory
import ReducedX86.Operand
import ReducedX86.Operator
import ReducedX86.Text.LowerCase
import ReducedX86.Text.Utf16

/-!
Variables: named regions of data memory that a program declares beforehand.

A declaration states a size, initial contents, or both. Text contents and non-empty byte
contents decide the size themselves; a number is cut to the size it is given.
-/
namespace ReducedX86

inductive VariableError
  | invalidName (name : String)
  | duplicate (name : String)
  | invalidSize (size : Nat)
  deriving DecidableEq, Repr, Inhabited

def VariableError.message : VariableError → String
  | invalidName name => "invalid variable name: \"" ++ name ++ "\""
  | duplicate name => "duplicate variable: \"" ++ name ++ "\""
  | invalidSize size => "invalid variable size: " ++ toString size

/-- Initial contents; text is stored as 16-bit units with a zero unit at the end. -/
inductive Contents
  | number (value : Word)
  | bytes (data : List UInt8)
  | text (text : String)
  deriving DecidableEq, Repr, Inhabited

inductive VariableKind
  | number | array | string
  deriving DecidableEq, Repr, Inhabited

structure Declaration where
  name : String
  size : Nat := 0
  initial : Option Contents := none
  forceArray : Bool := false
  deriving DecidableEq, Repr, Inhabited

/-- A declared variable. Its address is zero until the variables are allocated. -/
structure Variable where
  name : String
  size : Nat
  kind : VariableKind
  address : Word
  initial : Option Contents
  deriving DecidableEq, Repr, Inhabited

namespace Declaration

/-- The size that the contents have of themselves, or else the stated one. A size is a word, in
which that of longer contents wraps. -/
def actualSize (d : Declaration) : Nat :=
  match d.initial with
  | some (.text text) => ((UInt32.ofNat (Text.units text).length + 1) * 2).toNat
  | some (.bytes (b :: rest)) => (UInt32.ofNat (b :: rest).length).toNat
  | _ => d.size

def kind (d : Declaration) : VariableKind :=
  match d.initial with
  | some (.text _) => .string
  | some (.bytes (_ :: _)) => .array
  | _ => if 4 < d.actualSize || d.forceArray then .array else .number

def toVariable (d : Declaration) : Variable :=
  ⟨d.name, d.actualSize, d.kind, 0, d.initial⟩

/-- Words that no variable may be named, besides mnemonics and registers. -/
def reservedNames : List String := ["byte", "word", "dword", "ptr", "in"]

/-- Names start with a letter or a character after the letters, hold no space or tab, and are in
no case a keyword, a mnemonic or a register. -/
def isValidName (name : String) : Bool :=
  match name.toList with
  | [] => false
  | first :: _ =>
      let lowered := Text.lower name
      'A' ≤ first && !name.toList.any (fun c => c == ' ' || c == '\t') &&
        !reservedNames.contains lowered && (Operator.ofName? lowered).isNone &&
        (Register.ofName? lowered).isNone

end Declaration

namespace Variable

/-- The variable as an operand: a direct access of its whole size. -/
def operand (v : Variable) : Operand :=
  .memory { displacement := v.address, size := v.size }

def unitBytes (u : UInt16) : List UInt8 := [UInt8.ofNat u.toNat, UInt8.ofNat (u.toNat / 256)]

/-- The initial contents as they are laid out in memory. -/
def image? (v : Variable) : Option (List UInt8) :=
  match v.initial with
  | some (.text text) => some ((Text.units text ++ [0]).flatMap unitBytes)
  | some (.bytes (b :: rest)) => some (b :: rest)
  | some (.number value) => some (value.bytes.take v.size)
  | some (.bytes []) | none => none

end Variable

end ReducedX86
