import ReducedX86.Word

/-!
The six flags, their packed form, and what arithmetic leaves in them.

An addition or subtraction describes its operands and its stored result at one width: carry is
about the unsigned reading, overflow about the signed one, sign and zero about the result alone.
-/
namespace ReducedX86

structure Flags where
  carry : Bool := false
  direction : Bool := false
  interrupt : Bool := false
  overflow : Bool := false
  sign : Bool := false
  zero : Bool := false
  deriving DecidableEq, Repr, Inhabited

namespace Flags

/-- The flags as a word: carry in bit 0, then direction, interrupt, overflow, sign and zero. -/
def pack (f : Flags) : Word :=
  UInt32.ofNat
    (f.carry.toNat + 2 * f.direction.toNat + 4 * f.interrupt.toNat + 8 * f.overflow.toNat +
      16 * f.sign.toNat + 32 * f.zero.toNat)

/-- The flags in the low six bits of a word; the other bits are ignored. -/
def unpack (w : Word) : Flags where
  carry := w.bit 0
  direction := w.bit 1
  interrupt := w.bit 2
  overflow := w.bit 3
  sign := w.bit 4
  zero := w.bit 5

/-- Whether an unsigned result does not fit `size` bytes. -/
def carries (result : Nat) (size : Nat) : Bool := (Word.mask size).toNat < result

/-- Whether `a + b` left the signed range: equal signs, and a result of the other sign. -/
def addOverflows (a b result : Word) (size : Nat) : Bool :=
  a.negative size == b.negative size && result.negative size != a.negative size

/-- Whether `a - b` left the signed range: different signs, and a result not signed like `a`. -/
def subOverflows (a b result : Word) (size : Nat) : Bool :=
  a.negative size != b.negative size && result.negative size != a.negative size

def withSignZero (f : Flags) (result : Word) (size : Nat) : Flags :=
  { f with sign := result.negative size, zero := result.truncate size == 0 }

/-- The flags after an addition of `a` and `b` (and a carry) with the exact sum `sum`. -/
def afterAdd (f : Flags) (a b : Word) (sum : Nat) (size : Nat) : Flags :=
  let stored := Word.truncate (UInt32.ofNat sum) size
  withSignZero { f with carry := carries sum size, overflow := addOverflows a b stored size }
    stored size

/-- The flags after subtracting `b` from `a`, where `borrow` tells whether it had to borrow. -/
def afterSub (f : Flags) (a b result : Word) (borrow : Bool) (size : Nat) : Flags :=
  let stored := result.truncate size
  withSignZero { f with carry := borrow, overflow := subOverflows a b stored size } stored size

def afterLogic (f : Flags) (result : Word) (size : Nat) : Flags :=
  withSignZero { f with carry := false, overflow := false } (result.truncate size) size

theorem unpack_pack (f : Flags) : unpack f.pack = f := by
  obtain ⟨c, d, i, o, s, z⟩ := f
  cases c <;> cases d <;> cases i <;> cases o <;> cases s <;> cases z <;> decide +kernel

end Flags

/-- What conditional instructions ask of the flags. -/
inductive Condition
  | z | nz | ae | a | be | b | ge | g | le | l | s | ns | o | no
  deriving DecidableEq, Repr, Inhabited

namespace Condition

def all : List Condition := [z, nz, ae, a, be, b, ge, g, le, l, s, ns, o, no]

def holds (c : Condition) (f : Flags) : Bool :=
  match c with
  | z => f.zero
  | nz => !f.zero
  | ae => !f.carry
  | a => !f.carry && !f.zero
  | be => f.carry || f.zero
  | b => f.carry
  | ge => f.sign == f.overflow
  | g => f.sign == f.overflow && !f.zero
  | le => f.sign != f.overflow || f.zero
  | l => f.sign != f.overflow
  | s => f.sign
  | ns => !f.sign
  | o => f.overflow
  | no => !f.overflow

/-- The spellings of a condition in a mnemonic, the canonical one first. -/
def spellings : Condition → List String
  | z => ["z", "e"]
  | nz => ["nz", "ne"]
  | ae => ["ae", "nb", "nc"]
  | a => ["a", "nbe"]
  | be => ["be", "na"]
  | b => ["b", "nae", "c"]
  | ge => ["ge", "nl"]
  | g => ["g", "nle"]
  | le => ["le", "ng"]
  | l => ["l", "nge"]
  | s => ["s"]
  | ns => ["ns"]
  | o => ["o"]
  | no => ["no"]

end Condition

end ReducedX86
