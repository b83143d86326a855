import ReducedX86.Word
import ReducedX86.Bytes

/-!
Register names and the bank behind them.

Each 32-bit register owns a slot of four bytes. The narrower names are views of parts of a slot,
so a write through one view shows in the others. A view is given by its first byte and its size;
the bank is a run of 36 bytes.
-/
namespace ReducedX86

inductive Register
  | eax | ebx | ecx | edx | esi | edi | esp | ebp | eip
  | ax | bx | cx | dx | si | di | sp | bp
  | al | ah | bl | bh | cl | ch | dl | dh
  deriving DecidableEq, Repr, Inhabited

namespace Register

def all : List Register :=
  [eax, ebx, ecx, edx, esi, edi, esp, ebp, eip, ax, bx, cx, dx, si, di, sp, bp,
   al, ah, bl, bh, cl, ch, dl, dh]

/-- The registers that own a slot, in slot order. -/
def owners : List Register := [eax, ebx, ecx, edx, esi, edi, esp, ebp, eip]

def name : Register → String
  | eax => "eax" | ebx => "ebx" | ecx => "ecx" | edx => "edx" | esi => "esi" | edi => "edi"
  | esp => "esp" | ebp => "ebp" | eip => "eip" | ax => "ax" | bx => "bx" | cx => "cx"
  | dx => "dx" | si => "si" | di => "di" | sp => "sp" | bp => "bp" | al => "al" | ah => "ah"
  | bl => "bl" | bh => "bh" | cl => "cl" | ch => "ch" | dl => "dl" | dh => "dh"

/-- The register of a name; ASCII letters may be in either case. -/
def ofName? (name : String) : Option Register :=
  all.find? fun r => r.name == name.map Char.toLower

/-- The slot a register lies in. -/
def slot : Register → Nat
  | eax | ax | al | ah => 0
  | ebx | bx | bl | bh => 1
  | ecx | cx | cl | ch => 2
  | edx | dx | dl | dh => 3
  | esi | si => 4
  | edi | di => 5
  | esp | sp => 6
  | ebp | bp => 7
  | eip => 8

/-- The first byte of a register in the bank; the four high-byte views start one byte up. -/
def offset : Register → Nat
  | ah => 1
  | bh => 5
  | ch => 9
  | dh => 13
  | r => 4 * r.slot

def size : Register → Nat
  | eax | ebx | ecx | edx | esi | edi | esp | ebp | eip => 4
  | ax | bx | cx | dx | si | di | sp | bp => 2
  | al | ah | bl | bh | cl | ch | dl | dh => 1

def accumulator : Nat → Register
  | 1 => al
  | 2 => ax
  | _ => eax

theorem offset_add_size_le (r : Register) : r.offset + r.size ≤ 36 := by
  cases r <;> decide

theorem ofName?_name (r : Register) : ofName? r.name = some r := by
  cases r <;> decide +kernel

end Register

structure RegisterFile where
  bytes : ByteArray
  size_bytes : bytes.size = 36

namespace RegisterFile

def zero : RegisterFile := ⟨Bytes.zeros 36, Bytes.size_zeros 36⟩

instance : Inhabited RegisterFile := ⟨zero⟩

def get (f : RegisterFile) (r : Register) : Word :=
  UInt32.ofNat (Bytes.load f.bytes r.offset r.size)

/-- Stores the low bytes of a value in a register; a narrow view leaves the rest of its slot. -/
def set (f : RegisterFile) (r : Register) (value : Word) : RegisterFile where
  bytes := Bytes.store f.bytes r.offset r.size value.toNat
  size_bytes := by rw [Bytes.size_store, f.size_bytes]

/-- The nine slots as words. -/
def bank (f : RegisterFile) : List Word := Register.owners.map f.get

end RegisterFile

end ReducedX86
