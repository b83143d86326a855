import Mathlib.Data.Nat.Digits.Defs
import ReducedX86.Bytes

/-!
What loads find after stores.

A byte store is known by its size and its bytes. A load depends on the bytes it reaches only, so it
passes over stores elsewhere, and what was stored is found again modulo the number of its bytes. A
blank store has zeros only.
-/
namespace ReducedX86.Bytes

theorem ext {b c : ByteArray} (size : b.size = c.size) (bytes : ∀ i, byteAt b i = byteAt c i) :
    b = c := by
  apply ByteArray.ext
  apply Array.ext size
  intro i hb hc
  have in_b : i < b.size := hb
  have in_c : i < c.size := hc
  have same := bytes i
  rw [byteAt, byteAt, dif_pos in_b, dif_pos in_c] at same
  exact same

theorem load_congr {b c : ByteArray} {start n : Nat}
    (bytes : ∀ i, start ≤ i → i < start + n → byteAt b i = byteAt c i) :
    load b start n = load c start n := by
  induction n generalizing start with
  | zero => rfl
  | succ n ih =>
      have rest : load b (start + 1) n = load c (start + 1) n :=
        ih fun i lower upper => bytes i (by omega) (by omega)
      rw [load, load, rest, bytes start (by omega) (by omega)]

theorem load_store_of_apart (b : ByteArray) (start n value there count : Nat)
    (apart : start + n ≤ there ∨ there + count ≤ start) :
    load (store b start n value) there count = load b there count := by
  apply load_congr
  intro i lower upper
  rw [byteAt_store, if_neg (by omega)]

theorem store_comm (b : ByteArray) (start n value there count other : Nat)
    (apart : start + n ≤ there ∨ there + count ≤ start) :
    store (store b start n value) there count other =
      store (store b there count other) start n value := by
  apply ext
  · simp only [size_store]
  · intro i
    simp only [byteAt_store, size_store]
    by_cases first : start ≤ i ∧ i < start + n ∧ i < b.size
    · rw [if_neg (by omega), if_pos first, if_pos first]
    · rw [if_neg first, if_neg first]

/-- A store leaves nothing of an earlier one that lies within its range. -/
theorem store_store_of_within (b : ByteArray) {start n there count : Nat} (value other : Nat)
    (lower : start ≤ there) (upper : there + count ≤ start + n) :
    store (store b there count value) start n other = store b start n other := by
  apply ext
  · simp only [size_store]
  · intro i
    simp only [byteAt_store, size_store]
    by_cases covered : start ≤ i ∧ i < start + n ∧ i < b.size
    · rw [if_pos covered, if_pos covered]
    · rw [if_neg covered, if_neg covered, if_neg (by omega)]

/-- Of two stores to the same place the second is left. -/
theorem store_store (b : ByteArray) (start n value other : Nat) :
    store (store b start n value) start n other = store b start n other :=
  store_store_of_within b value other (Nat.le_refl _) (Nat.le_refl _)

theorem setByte_byteAt (b : ByteArray) (i : Nat) : setByte b i (byteAt b i) = b := by
  apply ext
  · rw [size_setByte]
  · intro j
    rw [byteAt_setByte]
    split
    · rename_i same
      rw [same.1]
    · rfl

/-- To store what is there changes nothing. -/
theorem store_load (b : ByteArray) (start n : Nat) : store b start n (load b start n) = b := by
  induction n generalizing b start with
  | zero => rfl
  | succ n ih =>
      have low : UInt8.ofNat (load b start (n + 1)) = byteAt b start := by
        rw [load]
        apply UInt8.toNat_inj.mp
        have small := (byteAt b start).toNat_lt
        rw [UInt8.toNat_ofNat']
        omega
      have high : load b start (n + 1) / 256 = load b (start + 1) n := by
        have small := (byteAt b start).toNat_lt
        rw [load]
        omega
      rw [store, low, high, setByte_byteAt, ih]

/-- The bytes of a number, put together again. -/
theorem load_store (b : ByteArray) (start n value : Nat) (inside : start + n ≤ b.size) :
    load (store b start n value) start n = value % (1 <<< (8 * n)) := by
  induction n generalizing b start value with
  | zero => rw [load, Nat.mul_zero, Nat.shiftLeft_zero, Nat.mod_one]
  | succ n ih =>
      have first : byteAt (store (setByte b start (UInt8.ofNat value)) (start + 1) n (value / 256))
          start = UInt8.ofNat value := by
        rw [byteAt_store, if_neg (by omega), byteAt_setByte, if_pos ⟨rfl, by omega⟩]
      have rest := ih (setByte b start (UInt8.ofNat value)) (start + 1) (value / 256)
        (by rw [size_setByte]; omega)
      have split : (1 : Nat) <<< (8 * (n + 1)) = 256 * 1 <<< (8 * n) := by
        rw [Nat.one_shiftLeft, Nat.one_shiftLeft, Nat.mul_succ, Nat.pow_add, Nat.mul_comm]
      rw [store, load, first, rest, split, Nat.mod_mul, UInt8.toNat_ofNat']

/-! The bytes of a number -/

/-- The number of which the bytes are given, the lowest one first. -/
def number (bytes : List UInt8) : Nat := Nat.ofDigits 256 (bytes.map UInt8.toNat)

theorem load_eq_number (b : ByteArray) (start n : Nat) :
    load b start n = number ((List.range n).map fun i => byteAt b (start + i)) := by
  induction n generalizing start with
  | zero => rfl
  | succ n ih =>
      have later : (fun i => byteAt b (start + (i + 1))) = fun i => byteAt b (start + 1 + i) := by
        funext i
        rw [Nat.add_right_comm, Nat.add_assoc]
      simp only [load, ih, number, List.range_succ_eq_map, List.map_cons, List.map_map,
        Function.comp_def, Nat.succ_eq_add_one, later, Nat.ofDigits_cons, Nat.add_zero]

theorem byte_load (b : ByteArray) (start n i : Nat) :
    UInt8.ofNat (load b start n >>> (8 * i)) = if i < n then byteAt b (start + i) else 0 := by
  induction n generalizing start i with
  | zero =>
      rw [load, Nat.zero_shiftRight]
      rfl
  | succ n ih =>
      have small := (byteAt b start).toNat_lt
      cases i with
      | zero =>
          apply UInt8.toNat_inj.mp
          rw [if_pos (Nat.succ_pos n), load, UInt8.toNat_ofNat', Nat.mul_zero, Nat.shiftRight_zero,
            Nat.add_zero start]
          omega
      | succ i =>
          have later : load b start (n + 1) >>> (8 * (i + 1)) = load b (start + 1) n >>> (8 * i) := by
            have rest : load b start (n + 1) / 2 ^ 8 = load b (start + 1) n := by
              rw [load]
              omega
            rw [Nat.mul_succ, Nat.add_comm (8 * i), Nat.shiftRight_add, Nat.shiftRight_eq_div_pow _ 8,
              rest]
          have place : start + 1 + i = start + (i + 1) := by omega
          rw [later, ih, place]
          exact if_congr Nat.succ_lt_succ_iff.symm rfl rfl

/-! Runs of bytes, and none but zeros -/

theorem byteAt_eq_getD (b : ByteArray) (i : Nat) : byteAt b i = b.data[i]?.getD 0 := by
  rw [byteAt]
  by_cases inside : i < b.size
  · have found : b.data[i]? = some (b.get i inside) := Array.getElem?_eq_getElem inside
    rw [dif_pos inside, found, Option.getD_some]
  · rw [dif_neg inside, Array.getElem?_eq_none (Nat.le_of_not_lt inside), Option.getD_none]

theorem byteAt_storeList (b : ByteArray) (start : Nat) (data : List UInt8) (i : Nat) :
    byteAt (storeList b start data) i =
      if start ≤ i ∧ i < start + data.length ∧ i < b.size then data.getD (i - start) 0
      else byteAt b i := by
  induction data generalizing b start with
  | nil => rw [storeList, List.length_nil, if_neg (by omega)]
  | cons v rest ih =>
      rw [storeList, ih, size_setByte, byteAt_setByte, List.length_cons]
      by_cases first : i = start
      · subst first
        have inside : i < b.size ↔ i ≤ i ∧ i < i + (rest.length + 1) ∧ i < b.size := by omega
        rw [if_neg (by omega), Nat.sub_self, List.getD_cons_zero]
        simp only [true_and, ← inside]
      · rw [if_neg (c := i = start ∧ i < b.size) fun here => first here.1]
        by_cases later : start + 1 ≤ i ∧ i < start + 1 + rest.length ∧ i < b.size
        · have next : i - start = i - (start + 1) + 1 := by omega
          rw [if_pos later, if_pos (by omega), next, List.getD_cons_succ]
        · rw [if_neg later, if_neg (by omega)]

/-- Zero bytes at the end cannot be told from the end. -/
theorem byteAt_append_of_blank (b : ByteArray) {c : ByteArray} (blank : ∀ i, byteAt c i = 0)
    (i : Nat) : byteAt (b ++ c) i = byteAt b i := by
  rw [byteAt_eq_getD, byteAt_eq_getD, ByteArray.data_append, Array.getElem?_append]
  split
  · rfl
  · rename_i outside
    have nothing := blank (i - b.data.size)
    rw [byteAt_eq_getD] at nothing
    rw [nothing, Array.getElem?_eq_none (Nat.le_of_not_lt outside), Option.getD_none]

theorem byteAt_pushZeros (b : ByteArray) (n i : Nat) : byteAt (pushZeros b n) i = byteAt b i := by
  induction n generalizing b with
  | zero => rfl
  | succ n ih =>
      have pushed : b.push 0 = b ++ ⟨#[0]⟩ := by
        apply ByteArray.ext
        rw [ByteArray.data_push, ByteArray.data_append]
        rfl
      have zero (i : Nat) : byteAt ⟨#[0]⟩ i = 0 := by
        rw [byteAt_eq_getD]
        cases i <;> rfl
      rw [pushZeros, ih, pushed, byteAt_append_of_blank b zero]

theorem byteAt_appendBlocks {block : ByteArray} (blank : ∀ i, byteAt block i = 0) (b : ByteArray)
    (n i : Nat) : byteAt (appendBlocks block b n) i = byteAt b i := by
  induction n generalizing b with
  | zero => rfl
  | succ n ih => rw [appendBlocks, ih, byteAt_append_of_blank b blank]

theorem byteAt_zeros (n i : Nat) : byteAt (zeros n) i = 0 := by
  have blank (i : Nat) : byteAt (pushZeros ByteArray.empty blockSize) i = 0 := by
    rw [byteAt_pushZeros]
    rfl
  rw [zeros, byteAt_pushZeros, byteAt_appendBlocks blank]
  rfl

end ReducedX86.Bytes
