import ReducedX86.Variable

/-!
The table of declared variables, and their allocation.

Variables keep the order in which they were declared; names are compared ignoring case.
Allocation packs them from the base of memory up without gaps: first those of 4 bytes, then the
other multiples of 4, then those of 2, then the other even sizes, then the odd ones, smaller
before larger and then by name. The order of declaration has no influence.
-/
namespace ReducedX86

structure VariableTable where
  entries : List Variable := []
  deriving DecidableEq, Repr, Inhabited

namespace VariableTable

/-- Names are the same if their keys are. -/
def key (name : String) : String := Text.lower name

def find? (t : VariableTable) (name : String) : Option Variable :=
  let k := key name
  t.entries.find? fun v => key v.name == k

def contains (t : VariableTable) (name : String) : Bool := (t.find? name).isSome

/-- Declares a variable for a memory of `memorySize` bytes. A stated size must fit the memory; no
size need be stated if there are contents. -/
def add (t : VariableTable) (d : Declaration) (memorySize : Nat) :
    Except VariableError (Variable × VariableTable) :=
  if !Declaration.isValidName d.name then .error (.invalidName d.name)
  else if t.contains d.name then .error (.duplicate d.name)
  else if (d.size = 0 ∧ d.initial.isNone) ∨ memorySize < d.size then .error (.invalidSize d.size)
  else if d.actualSize = 0 then .error (.invalidSize 0)
  else .ok (d.toVariable, ⟨t.entries ++ [d.toVariable]⟩)

/-- Removes a variable, which is returned if there is one of the name. -/
def remove (t : VariableTable) (name : String) : Option Variable × VariableTable :=
  match t.find? name with
  | none => (none, t)
  | some v => (some v, ⟨t.entries.filter fun w => key w.name != key name⟩)

def totalSize (t : VariableTable) : Nat :=
  t.entries.foldl (fun total v => total + v.size) 0

/-- The class of a size in the order of allocation. -/
def sizeRank (size : Nat) : Nat :=
  if size = 4 then 0
  else if size % 4 = 0 then 1
  else if size = 2 then 2
  else if size % 2 = 0 then 3
  else 4

/-- Whether `a` is allocated before `b`, or has the same place in the order. -/
def allocatedBefore (a b : Variable) : Bool :=
  let (ra, rb) := (sizeRank a.size, sizeRank b.size)
  let (ka, kb) := (key a.name, key b.name)
  ra < rb || (ra == rb && (a.size < b.size || (a.size == b.size &&
    (ka < kb || (ka == kb && a.name ≤ b.name)))))

/-- The names of variables in the order of allocation, with addresses from `address` on. -/
def place (address : Word) : List Variable → List (String × Word)
  | [] => []
  | v :: rest => (key v.name, address) :: place (address + UInt32.ofNat v.size) rest

def addresses (t : VariableTable) : List (String × Word) :=
  place (UInt32.ofNat Memory.base) (t.entries.mergeSort allocatedBefore)

/-- Gives every variable its address, or reports the total size if it exceeds the memory. -/
def allocate (t : VariableTable) (memorySize : Nat) : Except Nat VariableTable :=
  if memorySize < t.totalSize then .error t.totalSize
  else
    let placed := t.addresses
    .ok ⟨t.entries.map fun v =>
      { v with address := (placed.lookup (key v.name)).getD v.address }⟩

/-- Writes the initial contents of one variable; contents that do not fit are left out. -/
def fillOne (m : Memory) (v : Variable) : Memory :=
  match v.image? with
  | some image => (m.fill? v.address image).getD m
  | none => m

/-- Writes all initial contents to memory. -/
def fill (t : VariableTable) (m : Memory) : Memory := t.entries.foldl fillOne m

end VariableTable

end ReducedX86
