import ReducedX86.Proofs.Execution.Operands

/-!
Words one behind the other in memory.

`wordsFault?` tells whether a run of words can be read, and then it can be written as well. Such a run
does not go round the end of the address space, so no word of it lies over another: what was
stored in it is found again word by word, and it is found wherever the bytes are the same.
-/
namespace ReducedX86

-- Two processors are compared field by field; what stores make of memory need not be looked into.
attribute [local irreducible] RegisterFile.set Memory.store

variable {δ : Type}

theorem Word.add_words_succ (address : Word) (n : Nat) :
    address + 4 + 4 * UInt32.ofNat n = address + 4 * UInt32.ofNat (n + 1) := by
  rw [UInt32.ofNat_add]
  grind

namespace Processor

/-- Stores words one behind the other. -/
def storeWords (p : Processor δ) (address : Word) : List Word → Processor δ
  | [] => p
  | value :: rest => (p.storeAt address value 4).storeWords (address + 4) rest

@[simp] theorem storeWords_cons (p : Processor δ) (address value : Word) (rest : List Word) :
    p.storeWords address (value :: rest) =
      (p.storeAt address value 4).storeWords (address + 4) rest := rfl

section

variable (p : Processor δ) (address : Word)

/-- Nothing but the memory changes. -/
theorem storeWords_memory (values : List Word) :
    p.storeWords address values = { p with memory := (p.storeWords address values).memory } := by
  induction values generalizing p address with
  | nil => rfl
  | cons value rest ih => exact ih (p.storeAt address value 4) (address + 4)

theorem storeWords_append (values more : List Word) :
    p.storeWords address (values ++ more) =
      (p.storeWords address values).storeWords (address + 4 * UInt32.ofNat values.length) more := by
  induction values generalizing p address with
  | nil => simp [storeWords]
  | cons value rest ih =>
      rw [List.cons_append, storeWords_cons, storeWords_cons, ih, Word.add_words_succ,
        List.length_cons]

@[simp] theorem wordsFault?_storeAt (there value : Word) (count n : Nat) :
    (p.storeAt there value count).wordsFault? address n = p.wordsFault? address n := by
  induction n generalizing address with
  | zero => rfl
  | succ n ih => rw [wordsFault?, wordsFault?, ih, storeAt, Memory.readFault?_store]

@[simp] theorem wordsFault?_storeWords (there : Word) (values : List Word) (n : Nat) :
    (p.storeWords there values).wordsFault? address n = p.wordsFault? address n := by
  induction values generalizing p there with
  | nil => rfl
  | cons value rest ih => rw [storeWords_cons, ih, wordsFault?_storeAt]

end

section Readable

variable {p : Processor δ} {address : Word}

theorem wordsFault?_succ_eq_none_iff {n : Nat} :
    p.wordsFault? address (n + 1) = none ↔
      p.memory.readFault? address 4 = none ∧ p.wordsFault? (address + 4) n = none := by
  rw [wordsFault?, Option.or_eq_none_iff]

theorem wordsFault?_add_eq_none_iff (m n : Nat) :
    p.wordsFault? address (m + n) = none ↔
      p.wordsFault? address m = none ∧ p.wordsFault? (address + 4 * UInt32.ofNat m) n = none := by
  induction m generalizing address with
  | zero => simp [wordsFault?]
  | succ m ih =>
      rw [Nat.succ_add, wordsFault?_succ_eq_none_iff, wordsFault?_succ_eq_none_iff, ih,
        Word.add_words_succ, and_assoc]

theorem wordsAt_add (m n : Nat) :
    p.wordsAt address (m + n) =
      p.wordsAt address m ++ p.wordsAt (address + 4 * UInt32.ofNat m) n := by
  induction m generalizing address with
  | zero => simp [wordsAt]
  | succ m ih =>
      rw [Nat.succ_add, wordsAt, wordsAt, ih, Word.add_words_succ, List.cons_append]

@[simp] theorem length_wordsAt (n : Nat) : (p.wordsAt address n).length = n := by
  induction n generalizing address with
  | zero => rfl
  | succ n ih => rw [wordsAt, List.length_cons, ih]

/-- An address that can be read is not below the base, so counting up to it has not wrapped. -/
theorem toNat_add_of_readable {k : Word} {size : Nat} (short : k.toNat ≤ Memory.base)
    (readable : p.memory.readFault? (address + k) size = none) :
    (address + k).toNat = address.toNat + k.toNat := by
  have inside := (Memory.readFault?_eq_none_iff.mp readable).1
  exact Word.toNat_add_of_le (Nat.le_trans short (Memory.inRange_iff.mp inside).1)

theorem toNat_next {n : Nat} (more : n ≠ 0) (readable : p.wordsFault? (address + 4) n = none) :
    (address + 4).toNat = address.toNat + 4 := by
  obtain ⟨k, rfl⟩ := Nat.exists_eq_succ_of_ne_zero more
  exact toNat_add_of_readable (by decide) (wordsFault?_succ_eq_none_iff.mp readable).1

theorem toNat_add_words {n : Nat} (readable : p.wordsFault? address (n + 1) = none) :
    (address + 4 * UInt32.ofNat n).toNat = address.toNat + 4 * n := by
  induction n generalizing address with
  | zero => simp
  | succ n ih =>
      obtain ⟨-, rest⟩ := wordsFault?_succ_eq_none_iff.mp readable
      rw [← Word.add_words_succ, ih rest, toNat_next (Nat.succ_ne_zero n) rest]
      omega

/-- Words that can be read one after the other are a run of bytes. -/
theorem inRange_of_words {n : Nat} (readable : p.wordsFault? address (n + 1) = none) :
    p.memory.inRange address (4 * (n + 1)) := by
  induction n generalizing address with
  | zero =>
      exact (Memory.readFault?_eq_none_iff.mp (wordsFault?_succ_eq_none_iff.mp readable).1).1
  | succ n ih =>
      obtain ⟨first, rest⟩ := wordsFault?_succ_eq_none_iff.mp readable
      have next := toNat_next (Nat.succ_ne_zero n) rest
      have inside := Memory.inRange_iff.mp (Memory.readFault?_eq_none_iff.mp first).1
      have behind := Memory.inRange_iff.mp (ih rest)
      exact Memory.inRange_iff.mpr (by omega)

/-- Words that are stored behind a word leave it alone. -/
theorem load_storeWords {there : Word} {values : List Word}
    (readable : p.memory.readFault? there 4 = none)
    (whole : p.wordsFault? address values.length = none)
    (below : values ≠ [] → there.toNat + 4 ≤ address.toNat) :
    (p.storeWords address values).memory.load there 4 = p.memory.load there 4 := by
  induction values generalizing p address with
  | nil => rfl
  | cons value rest ih =>
      obtain ⟨first, behind⟩ := wordsFault?_succ_eq_none_iff.mp whole
      have apart := below (List.cons_ne_nil value rest)
      have further (more : rest ≠ []) : there.toNat + 4 ≤ (address + 4).toNat := by
        have next := toNat_next (mt List.eq_nil_of_length_eq_zero more) behind
        omega
      rw [storeWords_cons, ih ((Memory.readFault?_store ..).trans readable)
        ((wordsFault?_storeAt ..).trans behind) further]
      exact Memory.load_store_of_apart value (Memory.readFault?_eq_none_iff.mp first).1
        (Memory.readFault?_eq_none_iff.mp readable).1 (.inr apart)

/-- Words that were stored are found. -/
theorem wordsAt_storeWords {values : List Word}
    (whole : p.wordsFault? address values.length = none) :
    (p.storeWords address values).wordsAt address values.length = values := by
  induction values generalizing p address with
  | nil => rfl
  | cons value rest ih =>
      obtain ⟨first, behind⟩ := wordsFault?_succ_eq_none_iff.mp whole
      have behind' : (p.storeAt address value 4).wordsFault? (address + 4) rest.length = none :=
        (wordsFault?_storeAt ..).trans behind
      have below (more : rest ≠ []) : address.toNat + 4 ≤ (address + 4).toNat :=
        Nat.le_of_eq (toNat_next (mt List.eq_nil_of_length_eq_zero more) behind).symm
      have head : ((p.storeAt address value 4).storeWords (address + 4) rest).memory.load address 4 =
          value := by
        rw [load_storeWords ((Memory.readFault?_store ..).trans first) behind' below]
        exact (Memory.load_store first value).trans (Word.truncate_four value)
      rw [storeWords_cons, List.length_cons, wordsAt, head, ih behind']

/-- A word may be stored before or after the words below it. -/
theorem storeWords_storeAt {there value : Word} {values : List Word}
    (whole : p.wordsFault? address values.length = none)
    (above : values ≠ [] → address.toNat + 4 * values.length ≤ there.toNat) :
    (p.storeAt there value 4).storeWords address values =
      (p.storeWords address values).storeAt there value 4 := by
  induction values generalizing p address with
  | nil => rfl
  | cons first rest ih =>
      obtain ⟨readable, behind⟩ := wordsFault?_succ_eq_none_iff.mp whole
      have apart := above (List.cons_ne_nil first rest)
      rw [List.length_cons] at apart
      have lower := (Memory.inRange_iff.mp (Memory.readFault?_eq_none_iff.mp readable).1).1
      have further (more : rest ≠ []) : (address + 4).toNat + 4 * rest.length ≤ there.toNat := by
        have next := toNat_next (mt List.eq_nil_of_length_eq_zero more) behind
        omega
      have swap : (p.storeAt there value 4).storeAt address first 4 =
          (p.storeAt address first 4).storeAt there value 4 :=
        congrArg (fun memory => { p with memory })
          (Memory.store_comm first value lower (by omega)).symm
      rw [storeWords_cons, storeWords_cons, swap, ih ((wordsFault?_storeAt ..).trans behind) further]

/-- The ends of a run may be stored before the words between them. -/
theorem storeWords_ends {first last : Word} (middle : List Word)
    (whole : p.wordsFault? address (middle.length + 2) = none) :
    ((p.storeAt address first 4).storeAt (address + 4 * UInt32.ofNat (middle.length + 1)) last
        4).storeWords (address + 4) middle =
      p.storeWords address (first :: (middle ++ [last])) := by
  obtain ⟨-, behind⟩ := wordsFault?_succ_eq_none_iff.mp whole
  obtain ⟨between, -⟩ := (wordsFault?_add_eq_none_iff middle.length 1).mp behind
  have above : (address + 4).toNat + 4 * middle.length ≤
      (address + 4 * UInt32.ofNat (middle.length + 1)).toNat := by
    rw [← Word.add_words_succ, toNat_add_words behind]
  rw [storeWords_storeAt ((wordsFault?_storeAt ..).trans between) (fun _ => above),
    storeWords_cons, storeWords_append, Word.add_words_succ, storeWords_cons, storeWords]

/-- While the bytes of a run are the same, so are the words in it. -/
theorem words_of_slice? {q : Processor δ} {start : Word} {length n : Nat}
    (whole : p.memory.inRange start length)
    (same : q.memory.slice? start length = p.memory.slice? start length)
    (readable : p.wordsFault? address n = none)
    (inside : n ≠ 0 → start.toNat ≤ address.toNat ∧ address.toNat + 4 * n ≤ start.toNat + length) :
    q.wordsFault? address n = none ∧ q.wordsAt address n = p.wordsAt address n := by
  induction n generalizing address with
  | zero => exact ⟨rfl, rfl⟩
  | succ n ih =>
      obtain ⟨first, behind⟩ := wordsFault?_succ_eq_none_iff.mp readable
      obtain ⟨lower, upper⟩ := inside (Nat.succ_ne_zero n)
      have found := Memory.read_of_slice? same lower (by omega) whole
        (Memory.read_eq_ok_iff.mpr ⟨first, rfl⟩)
      obtain ⟨first', loaded⟩ := Memory.read_eq_ok_iff.mp found
      have further (more : n ≠ 0) : start.toNat ≤ (address + 4).toNat ∧
          (address + 4).toNat + 4 * n ≤ start.toNat + length := by
        have next := toNat_next more behind
        omega
      obtain ⟨behind', rest⟩ := ih behind further
      exact ⟨wordsFault?_succ_eq_none_iff.mpr ⟨first', behind'⟩, by rw [wordsAt, wordsAt, loaded, rest]⟩

end Readable

end Processor

end ReducedX86
