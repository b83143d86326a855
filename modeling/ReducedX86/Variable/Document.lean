import ReducedX86.Ron.Document
import ReducedX86.Variable

/-!
Declarations as documents: a list of records, of which only the name is required.
-/
namespace ReducedX86

/-- Initial contents by the name that marks their kind. -/
def Contents.reader? : String → Option (Ron.Reader Contents)
  | "Number" => some ((fun n => .number (UInt32.ofNat n)) <$> Ron.unsigned 32)
  | "Bytes" => some ((fun bs => .bytes (bs.map UInt8.ofNat)) <$> Ron.list (Ron.unsigned 8))
  | "Text" => some (.text <$> Ron.string)
  | _ => none

namespace Declaration

/-- How deep the fields nest that are passed over. -/
def fieldDepth : Nat := Ron.maxDepth - 4

/-- What a field of a declaration sets, by its name. -/
def field? (e : Ron.Extensions) : String → Option (Ron.Reader (Declaration → Declaration))
  | "name" => some ((fun s d => { d with name := s }) <$> Ron.string)
  | "size" => some ((fun n d => { d with size := n }) <$> Ron.unsigned 32)
  | "initial" =>
      some ((fun c d => { d with initial := c }) <$> Ron.option e (Ron.variant Contents.reader?))
  | "force_array" => some ((fun b d => { d with forceArray := b }) <$> Ron.bool)
  | _ => none

def reader (e : Ron.Extensions) : Ron.Reader Declaration :=
  Ron.record e "VariableDecl" fieldDepth (field? e) ["name"] { name := "" }

def listOfDocument? (text : String) : Option (List Declaration) :=
  Ron.document? (fun e => Ron.list (reader e)) text

end Declaration

end ReducedX86
