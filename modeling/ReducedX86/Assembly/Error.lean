import ReducedX86.Instruction
import ReducedX86.Instruction.Validation

/-!
Why a source text is refused. Only the first error of a source is reported; every one but a lack
of space for variables has a position.
-/
namespace ReducedX86

inductive AssemblyErrorKind
  | invalidCharacter (c : Char)
  | invalidNumber
  | valueOutOfRange
  | labelOrOperatorExpected
  | operatorExpectedAfterRep
  | operatorNotRepeatable
  | operandExpected
  | colonExpected
  | commaExpected
  | ptrExpected
  | bracketExpected
  | invalidMemoryReference
  | invalidScale
  | duplicateLabel (name : String)
  | unknownLabel (name : String)
  | notEnoughSpace (bytes : Nat)
  | validation (error : ValidationError)
  deriving DecidableEq, Repr, Inhabited

def AssemblyErrorKind.message : AssemblyErrorKind → String
  | invalidCharacter c => "invalid character: \"" ++ c.toString ++ "\""
  | invalidNumber => "invalid number"
  | valueOutOfRange => "value out of range"
  | labelOrOperatorExpected => "label or operator expected"
  | operatorExpectedAfterRep => "operator expected after prefix"
  | operatorNotRepeatable => "operator cannot have a prefix"
  | operandExpected => "operand expected"
  | colonExpected => "\":\" expected"
  | commaExpected => "\",\" expected"
  | ptrExpected => "\"ptr\" expected"
  | bracketExpected => "\"[\" expected"
  | invalidMemoryReference => "invalid memory reference format"
  | invalidScale => "invalid scale (only 1, 2, 4 and 8 are allowed)"
  | duplicateLabel name => "duplicate label: \"" ++ name ++ "\""
  | unknownLabel name => "unknown label: \"" ++ name ++ "\""
  | notEnoughSpace bytes =>
      "not enough space for the variables: " ++ toString bytes ++ " bytes"
  | validation error => error.message

structure AssemblyError where
  kind : AssemblyErrorKind
  position : Option Position
  deriving DecidableEq, Repr, Inhabited

def AssemblyErrorKind.at (kind : AssemblyErrorKind) (position : Position) : AssemblyError :=
  ⟨kind, some position⟩

def AssemblyError.message (e : AssemblyError) : String :=
  match e.position with
  | some p => p.text ++ ": " ++ e.kind.message
  | none => e.kind.message

end ReducedX86
