/-!
Machine words and the widths at which instructions look at them.

A width is a number of bytes. One and two bytes are the narrow widths; every other number,
zero ("not yet known") included, stands for the full 32 bits. The lemmas move the operations
to natural numbers and integers, where arithmetic is done.
-/
namespace ReducedX86

/-- A 32-bit machine word; arithmetic on it wraps. -/
abbrev Word := UInt32

namespace Word

/-- Bits in an access of `size` bytes. -/
def bits : Nat → Nat
  | 1 => 8
  | 2 => 16
  | _ => 32

/-- How many values `size` bytes have. -/
def modulus : Nat → Nat
  | 1 => 0x100
  | 2 => 0x10000
  | _ => 0x100000000

/-- The largest unsigned value of `size` bytes. -/
def mask : Nat → Word
  | 1 => 0xFF
  | 2 => 0xFFFF
  | _ => 0xFFFFFFFF

/-- The word whose only set bit is the top bit of `size` bytes. -/
def signBit : Nat → Word
  | 1 => 0x80
  | 2 => 0x8000
  | _ => 0x80000000

def truncate (w : Word) (size : Nat) : Word := w &&& mask size

/-- Whether the top bit of the low `size` bytes is set. -/
def negative (w : Word) (size : Nat) : Bool := w &&& signBit size != 0

/-- The two's complement number that stands for `n`, which is less than the even `modulus`. -/
def twosComplement (n modulus : Nat) : Int :=
  if n < modulus / 2 then n else (n : Int) - (modulus : Int)

/-- The low `size` bytes of a word as a two's complement number. -/
def signed (w : Word) (size : Nat) : Int :=
  twosComplement (w.toNat % modulus size) (modulus size)

/-- The word that holds an integer modulo `2 ^ 32`. -/
def ofInt (i : Int) : Word := UInt32.ofNat (i % 0x100000000).toNat

/-- The low `size` bytes, sign extended to the whole word. -/
def signExtend (w : Word) (size : Nat) : Word := ofInt (signed w size)

/-- Whether bit `i` of a word is set. -/
def bit (w : Word) (i : Nat) : Bool := w.toNat.testBit i

/-- The word with bit `i` (below 32) set to `b`. -/
def setBit (w : Word) (i : Nat) (b : Bool) : Word :=
  let one : Word := (1 : Word) <<< UInt32.ofNat i
  if b then w ||| one else w &&& ~~~one

/-- Byte `i` of a word, the lowest one first. -/
def byte (w : Word) (i : Nat) : UInt8 := UInt8.ofNat (w.toNat >>> (8 * i))

/-- The four bytes of a word, the lowest one first. -/
def bytes (w : Word) : List UInt8 := [w.byte 0, w.byte 1, w.byte 2, w.byte 3]

/-- The word whose bytes are given, the lowest one first. -/
def ofBytes (b₀ b₁ b₂ b₃ : UInt8) : Word :=
  UInt32.ofNat (b₀.toNat + 256 * (b₁.toNat + 256 * (b₂.toNat + 256 * b₃.toNat)))

/-- The word with its four bytes in the opposite order. -/
def swapBytes (w : Word) : Word := ofBytes (w.byte 3) (w.byte 2) (w.byte 1) (w.byte 0)

theorem bits_pos (size : Nat) : 0 < bits size := by
  unfold bits; split <;> decide

theorem bits_le (size : Nat) : bits size ≤ 32 := by
  unfold bits; split <;> decide

theorem modulus_eq (size : Nat) : modulus size = 1 <<< bits size := by
  unfold modulus bits; split <;> rfl

theorem toNat_mask (size : Nat) : (mask size).toNat = modulus size - 1 := by
  unfold mask modulus; split <;> rfl

theorem toNat_truncate (w : Word) (size : Nat) :
    (truncate w size).toNat = w.toNat % modulus size := by
  rw [truncate, UInt32.toNat_and, toNat_mask, modulus_eq, Nat.one_shiftLeft,
    Nat.and_two_pow_sub_one_eq_mod]

theorem truncate_truncate (w : Word) (size : Nat) :
    truncate (truncate w size) size = truncate w size := by
  apply UInt32.toNat_inj.mp
  simp only [toNat_truncate, Nat.mod_mod]

theorem truncate_four (w : Word) : truncate w 4 = w := by
  apply UInt32.toNat_inj.mp
  rw [toNat_truncate]
  exact Nat.mod_eq_of_lt w.toNat_lt

theorem toNat_ofInt (i : Int) : (ofInt i).toNat = (i % 0x100000000).toNat := by
  rw [ofInt, UInt32.toNat_ofNat']
  omega

end Word

end ReducedX86
