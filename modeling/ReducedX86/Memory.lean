import ReducedX86.Bytes
import ReducedX86.Fault

/-!
Data memory: a bounded run of bytes mapped at a fixed base address.

An access is in range when all its bytes are; this is decided before its size is looked at, so
a bad address wins over a bad size. Only sizes 1, 2 and 4 can be read or written. Addresses
below the base are reserved and addresses from the limit on belong to instructions.
-/
namespace ReducedX86

structure Memory where
  bytes : ByteArray
  deriving Inhabited

namespace Memory

def base : Nat := 1024

def zero (size : Nat) : Memory := ⟨Bytes.zeros size⟩

def size (m : Memory) : Nat := m.bytes.size

/-- The address after the last byte; instructions start here. -/
def limit (m : Memory) : Word := UInt32.ofNat (base + m.size)

/-- Whether `size` bytes from `address` on are all in data memory. -/
def inRange (m : Memory) (address : Word) (size : Nat) : Bool :=
  base ≤ address.toNat && address.toNat + size ≤ base + m.size

def isAccessSize (size : Nat) : Bool := size == 1 || size == 2 || size == 4

/-- The little-endian number at an address, whose bytes are taken to be in range. -/
def load (m : Memory) (address : Word) (size : Nat) : Word :=
  UInt32.ofNat (Bytes.load m.bytes (address.toNat - base) size)

/-- Stores the low bytes of a value at an address whose bytes are taken to be in range. -/
def store (m : Memory) (address value : Word) (size : Nat) : Memory :=
  ⟨Bytes.store m.bytes (address.toNat - base) size value.toNat⟩

/-- Why a read is refused, if it is. -/
def readFault? (m : Memory) (address : Word) (size : Nat) : Option Fault :=
  if !m.inRange address size then some (.invalidReadAddress address)
  else if !isAccessSize size then some (.invalidReadSize size)
  else none

/-- Why a write is refused, if it is. -/
def writeFault? (m : Memory) (address : Word) (size : Nat) : Option Fault :=
  if !m.inRange address size then some (.invalidWriteAddress address)
  else if !isAccessSize size then some (.invalidWriteSize size)
  else none

def read (m : Memory) (address : Word) (size : Nat) : Except Fault Word :=
  match m.readFault? address size with
  | some fault => .error fault
  | none => .ok (m.load address size)

def write (m : Memory) (address value : Word) (size : Nat) : Except Fault Memory :=
  match m.writeFault? address size with
  | some fault => .error fault
  | none => .ok (m.store address value size)

/-- Copies bytes to an address, or `none` when they do not all fit. Their number is
taken as it is, however large. -/
def fill? (m : Memory) (address : Word) (data : List UInt8) : Option Memory :=
  if m.inRange address data.length then
    some ⟨Bytes.storeList m.bytes (address.toNat - base) data⟩
  else none

/-- The bytes at an address, or `none` when they are not all in range. -/
def slice? (m : Memory) (address : Word) (length : Nat) : Option (List UInt8) :=
  if m.inRange address length then some (Bytes.slice m.bytes (address.toNat - base) length)
  else none

/-- A size as a debugger takes it: one, two, or else four bytes. -/
def debugSize : Nat → Nat
  | 1 => 1
  | 2 => 2
  | _ => 4

/-- Reads for a debugger, which gets `none` instead of a fault. -/
def peek? (m : Memory) (address : Word) (size : Nat) : Option Word :=
  if m.inRange address (debugSize size) then some (m.load address (debugSize size)) else none

/-- Writes for a debugger, which gets `none` instead of a fault. -/
def poke? (m : Memory) (address value : Word) (size : Nat) : Option Memory :=
  if m.inRange address (debugSize size) then some (m.store address value (debugSize size))
  else none

def clear (m : Memory) : Memory := zero m.size

/-- The maximal runs of bytes that are not zero, each with its address, in address order. -/
def runs (m : Memory) : List (Nat × List UInt8) :=
  m.size.foldRev (fun i _ found =>
    let v := Bytes.byteAt m.bytes i
    if v == 0 then found
    else match found with
      | (start, run) :: rest =>
          if start == base + i + 1 then (base + i, v :: run) :: rest
          else (base + i, [v]) :: found
      | [] => [(base + i, [v])]) []

theorem size_store (m : Memory) (address value : Word) (size : Nat) :
    (m.store address value size).size = m.size := Bytes.size_store ..

theorem size_clear (m : Memory) : m.clear.size = m.size := Bytes.size_zeros _

end Memory

end ReducedX86
