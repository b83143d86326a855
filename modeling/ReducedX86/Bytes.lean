/-!
Byte stores and the little-endian numbers in them.

`load` and `store` work on any run of bytes by its offset and length; data memory, the register
bank and the port memory all use them. What they mean is said byte by byte: a stored value is
found at its offset, and no other byte changes (`byteAt_store`).
-/
namespace ReducedX86.Bytes

/-- The byte at an offset, zero outside the store. -/
def byteAt (b : ByteArray) (i : Nat) : UInt8 := if h : i < b.size then b.get i h else 0

/-- Replaces the byte at an offset; outside the store nothing happens. -/
def setByte (b : ByteArray) (i : Nat) (v : UInt8) : ByteArray :=
  if h : i < b.size then b.set i v h else b

/-- The little-endian number in the `n` bytes from `start` on. -/
def load (b : ByteArray) (start : Nat) : Nat → Nat
  | 0 => 0
  | n + 1 => (byteAt b start).toNat + 256 * load b (start + 1) n

/-- Writes the low `n` bytes of a number, the lowest one first. -/
def store (b : ByteArray) (start : Nat) : Nat → Nat → ByteArray
  | 0, _ => b
  | n + 1, value => store (setByte b start (UInt8.ofNat value)) (start + 1) n (value / 256)

def storeList (b : ByteArray) (start : Nat) : List UInt8 → ByteArray
  | [] => b
  | v :: rest => storeList (setByte b start v) (start + 1) rest

def slice (b : ByteArray) (start n : Nat) : List UInt8 :=
  (List.range n).map fun i => byteAt b (start + i)

def pushZeros (b : ByteArray) : Nat → ByteArray
  | 0 => b
  | n + 1 => pushZeros (b.push 0) n

def appendBlocks (block b : ByteArray) : Nat → ByteArray
  | 0 => b
  | n + 1 => appendBlocks block (b ++ block) n

def blockSize : Nat := 4096

/-- `n` zero bytes, laid out in blocks. -/
def zeros (n : Nat) : ByteArray :=
  let whole := appendBlocks (pushZeros ByteArray.empty blockSize) (ByteArray.emptyWithCapacity n)
    (n / blockSize)
  pushZeros whole (n % blockSize)

theorem size_setByte (b : ByteArray) (i : Nat) (v : UInt8) : (setByte b i v).size = b.size := by
  unfold setByte
  split
  · exact Array.size_set ..
  · rfl

theorem byteAt_setByte (b : ByteArray) (i j : Nat) (v : UInt8) :
    byteAt (setByte b i v) j = if j = i ∧ j < b.size then v else byteAt b j := by
  by_cases hi : i < b.size
  · have size_set : (b.set i v hi).size = b.size := Array.size_set ..
    rw [setByte, dif_pos hi]
    unfold byteAt
    by_cases hj : j < b.size
    · rw [dif_pos (size_set ▸ hj), dif_pos hj]
      by_cases h : j = i
      · subst h
        rw [if_pos ⟨rfl, hj⟩]
        exact Array.getElem_set_self ..
      · rw [if_neg fun e => h e.1]
        exact Array.getElem_set_ne _ _ fun e => h e.symm
    · rw [dif_neg (size_set ▸ hj), dif_neg hj, if_neg fun e => hj e.2]
  · have absent : ¬ (j = i ∧ j < b.size) := fun h => hi (h.1 ▸ h.2)
    rw [setByte, dif_neg hi, if_neg absent]

theorem size_store (b : ByteArray) (start n value : Nat) :
    (store b start n value).size = b.size := by
  induction n generalizing b start value with
  | zero => rfl
  | succ n ih => rw [store, ih, size_setByte]

theorem size_storeList (b : ByteArray) (start : Nat) (vs : List UInt8) :
    (storeList b start vs).size = b.size := by
  induction vs generalizing b start with
  | nil => rfl
  | cons v rest ih => rw [storeList, ih, size_setByte]

/-- A stored number lies at its offset, the lowest byte first, and nothing else changes. -/
theorem byteAt_store (b : ByteArray) (start n value j : Nat) :
    byteAt (store b start n value) j =
      if start ≤ j ∧ j < start + n ∧ j < b.size then UInt8.ofNat (value >>> (8 * (j - start)))
      else byteAt b j := by
  induction n generalizing b start value with
  | zero => rw [store, if_neg (by omega)]
  | succ n ih =>
      rw [store, ih, size_setByte, byteAt_setByte]
      by_cases h : j = start
      · subst h
        rw [if_neg (by omega)]
        by_cases hj : j < b.size
        · rw [if_pos ⟨rfl, hj⟩, if_pos ⟨by omega, by omega, hj⟩]
          simp
        · rw [if_neg (by simp [hj]), if_neg (by simp [hj])]
      · by_cases hin : start ≤ j ∧ j < start + (n + 1) ∧ j < b.size
        · rw [if_pos (by omega), if_pos hin, Nat.shiftRight_eq_div_pow, Nat.div_div_eq_div_mul]
          have : j - start = (j - (start + 1)) + 1 := by omega
          rw [this, Nat.mul_succ, Nat.shiftRight_eq_div_pow, Nat.pow_add, Nat.mul_comm]
        · rw [if_neg (by omega), if_neg (fun e => h e.1), if_neg hin]

theorem load_lt (b : ByteArray) (start n : Nat) : load b start n < 1 <<< (8 * n) := by
  induction n generalizing start with
  | zero => simp [load]
  | succ n ih =>
      have h₁ := ih (start + 1)
      have h₂ := (byteAt b start).toNat_lt
      rw [Nat.one_shiftLeft] at h₁ ⊢
      rw [load, Nat.mul_succ, Nat.pow_add]
      omega

theorem size_pushZeros (b : ByteArray) (n : Nat) : (pushZeros b n).size = b.size + n := by
  induction n generalizing b with
  | zero => rfl
  | succ n ih => rw [pushZeros, ih, ByteArray.size_push]; omega

theorem size_appendBlocks (block b : ByteArray) (n : Nat) :
    (appendBlocks block b n).size = b.size + block.size * n := by
  induction n generalizing b with
  | zero => rfl
  | succ n ih => rw [appendBlocks, ih, ByteArray.size_append, Nat.mul_succ]; omega

theorem size_zeros (n : Nat) : (zeros n).size = n := by
  have empty : (ByteArray.emptyWithCapacity n).size = 0 := rfl
  rw [zeros, size_pushZeros, size_appendBlocks, size_pushZeros, empty, ByteArray.size_empty,
    Nat.zero_add, Nat.zero_add]
  have := Nat.div_add_mod n blockSize
  omega

end ReducedX86.Bytes
