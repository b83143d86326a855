import ReducedX86.Processor
import ReducedX86.Proofs.Memory
import ReducedX86.Proofs.Word

/-!
Data memory as a store of bytes.

A number in memory is made of the bytes that it covers, so an access is known by what it does to
single bytes. An edit stores a run of bytes, all of it or none. After any number of edits a byte is
what the last of them put there that was accepted and reaches it. The accesses of a debugger are
those of instructions, without the faults.
-/
namespace ReducedX86

namespace Bytes

/-- To store a number is to store its bytes. -/
theorem store_eq_storeList (b : ByteArray) (start : Nat) {size : Nat} (short : size ≤ 4)
    (value : Word) :
    store b start size value.toNat = storeList b start (value.bytes.take size) := by
  have length : (value.bytes.take size).length = size := List.length_take_of_le short
  apply ext
  · rw [size_store, size_storeList]
  · intro i
    rw [byteAt_store, byteAt_storeList, length]
    by_cases covered : start ≤ i ∧ i < start + size ∧ i < b.size
    · have inside : i - start < size := by omega
      rw [if_pos covered, if_pos covered, List.getD_eq_getElem?_getD, List.getElem?_take_of_lt inside,
        ← List.getD_eq_getElem?_getD, Word.getD_bytes, Word.byte]
    · rw [if_neg covered, if_neg covered]

end Bytes

namespace Memory

/-! Edits -/

/-- A change of memory, as instructions, a debugger or the layout of variables ask for it. -/
inductive Edit
  | write (address value : Word) (size : Nat)
  | poke (address value : Word) (size : Nat)
  | fill (address : Word) (data : List UInt8)
  deriving DecidableEq, Repr, Inhabited

namespace Edit

def address : Edit → Word
  | write address _ _ | poke address _ _ | fill address _ => address

/-- The bytes that are to be stored. -/
def data : Edit → List UInt8
  | write _ value size => value.bytes.take size
  | poke _ value size => value.bytes.take (debugSize size)
  | fill _ data => data

/-- Only writes are refused for their size. -/
def sized : Edit → Bool
  | write _ _ size => isAccessSize size
  | poke _ _ _ | fill _ _ => true

/-- Whether a memory of `n` bytes accepts the edit. -/
def accepted (n : Nat) (e : Edit) : Bool :=
  base ≤ e.address.toNat && e.address.toNat + e.data.length ≤ base + n && e.sized

theorem accepted_iff {n : Nat} {e : Edit} :
    e.accepted n ↔
      (base ≤ e.address.toNat ∧ e.address.toNat + e.data.length ≤ base + n) ∧ e.sized := by
  simp [accepted]

/-- The byte that the edit puts at a place of a memory of `n` bytes, if it reaches it. -/
def byte? (n place : Nat) (e : Edit) : Option UInt8 :=
  if e.accepted n && e.address.toNat ≤ place then e.data[place - e.address.toNat]? else none

end Edit

/-- The memory after an edit, if the edit is accepted. -/
def edit? (m : Memory) : Edit → Option Memory
  | .write address value size => (m.write address value size).toOption
  | .poke address value size => m.poke? address value size
  | .fill address data => m.fill? address data

def edited (m : Memory) (e : Edit) : Memory := (m.edit? e).getD m

/-- An edit that is accepted stores its bytes. -/
theorem edit?_eq (m : Memory) (e : Edit) :
    m.edit? e =
      if e.accepted m.size then
        some ⟨Bytes.storeList m.bytes (e.address.toNat - base) e.data⟩
      else none := by
  have stored {address value : Word} {size : Nat} (access : isAccessSize size) :
      (if m.inRange address size then some (m.store address value size) else none) =
        if m.inRange address (value.bytes.take size).length then
          some ⟨Bytes.storeList m.bytes (address.toNat - base) (value.bytes.take size)⟩
        else none := by
    have short := le_four_of_isAccessSize access
    have length : (value.bytes.take size).length = size := List.length_take_of_le short
    rw [length, store, Bytes.store_eq_storeList _ _ short]
  have accepted : e.accepted m.size = (m.inRange e.address e.data.length && e.sized) := by
    rw [Bool.eq_iff_iff, Edit.accepted_iff, Bool.and_eq_true, inRange_iff]
  rw [accepted]
  cases e with
  | write address value size =>
      cases access : isAccessSize size with
      | false =>
          have refused : m.writeFault? address size ≠ none := fun none => by
            rw [(readFault?_eq_none_iff.mp (writeFault?_eq_none_iff.mp none)).2] at access
            cases access
          obtain ⟨f, fault⟩ := Option.ne_none_iff_exists'.mp refused
          rw [edit?, write, fault, Edit.sized, access, Bool.and_false]
          rfl
      | true =>
          have written : m.edit? (.write address value size) =
              if m.inRange address size then some (m.store address value size) else none := by
            rw [edit?, write, writeFault?, access]
            cases m.inRange address size <;> rfl
          rw [written, stored access, Edit.sized, access, Bool.and_true]
          rfl
  | poke address value size =>
      rw [edit?, poke?, stored (isAccessSize_debugSize size), Edit.sized, Bool.and_true]
      rfl
  | fill address data =>
      rw [Edit.sized, Bool.and_true]
      rfl

theorem isSome_edit? (m : Memory) (e : Edit) : (m.edit? e).isSome = e.accepted m.size := by
  rw [edit?_eq]
  cases e.accepted m.size <;> rfl

theorem size_edited (m : Memory) (e : Edit) : (m.edited e).size = m.size := by
  rw [edited, edit?_eq]
  split
  · exact Bytes.size_storeList ..
  · rfl

/-- An edit changes the bytes that it reaches. -/
theorem byteAt_edited (m : Memory) (e : Edit) {place : Nat} (lower : base ≤ place) :
    (m.edited e).byteAt place = (e.byte? m.size place).getD (m.byteAt place) := by
  rw [edited, edit?_eq, Edit.byte?]
  cases accepted : e.accepted m.size with
  | false => rfl
  | true =>
      obtain ⟨⟨above, below⟩, -⟩ := Edit.accepted_iff.mp accepted
      rw [size] at below
      have offset : place - base - (e.address.toNat - base) = place - e.address.toNat := by omega
      simp only [Bool.true_and, decide_eq_true_eq, if_true, Option.getD_some, byteAt,
        Bytes.byteAt_storeList, offset]
      by_cases reached : e.address.toNat ≤ place ∧ place - e.address.toNat < e.data.length
      · rw [if_pos (by omega), if_pos reached.1, List.getElem?_eq_getElem reached.2, Option.getD_some,
          List.getD_eq_getElem _ _ reached.2]
      · rw [if_neg (by omega)]
        split
        · rw [List.getElem?_eq_none (by omega), Option.getD_none]
        · rfl

theorem size_foldl_edited (m : Memory) (edits : List Edit) :
    (edits.foldl edited m).size = m.size := by
  induction edits generalizing m with
  | nil => rfl
  | cons e rest ih => rw [List.foldl_cons, ih, size_edited]

/-- After edits, the last that reaches a byte has determined it. -/
theorem byteAt_foldl_edited (m : Memory) (edits : List Edit) {place : Nat} (lower : base ≤ place) :
    (edits.foldl edited m).byteAt place =
      (edits.reverse.findSome? (·.byte? m.size place)).getD (m.byteAt place) := by
  induction edits generalizing m with
  | nil => rfl
  | cons e rest ih =>
      rw [List.foldl_cons, ih, size_edited, byteAt_edited m e lower, List.reverse_cons,
        List.findSome?_append, List.findSome?_singleton]
      cases rest.reverse.findSome? (·.byte? m.size place) <;> rfl

/-! Accesses -/

/-- The byte at a place when `size` bytes of a value have been stored at an address. -/
def overlaid (m : Memory) (address value : Word) (size place : Nat) : UInt8 :=
  if address.toNat ≤ place ∧ place < address.toNat + size then value.byte (place - address.toNat)
  else m.byteAt place

/-- Accesses are accesses to the bytes that they cover, to all of them or none. -/
structure StoresBytes (m : Memory) : Prop where
  readable (address : Word) {size : Nat} (access : isAccessSize size) :
    (∃ value, m.read address size = .ok value) ↔
      base ≤ address.toNat ∧ address.toNat + size ≤ base + m.size
  writable (address value : Word) {size : Nat} (access : isAccessSize size) :
    (∃ m', m.write address value size = .ok m') ↔
      base ≤ address.toNat ∧ address.toNat + size ≤ base + m.size
  value {address v : Word} {size : Nat} (found : m.read address size = .ok v) :
    v.toNat = Bytes.number ((List.range size).map fun i => m.byteAt (address.toNat + i))
  /-- A value that was written covers what was there. -/
  overlay {address value : Word} {size : Nat} {m' : Memory}
      (written : m.write address value size = .ok m') :
    m'.size = m.size ∧ ∀ (there : Word) (count : Nat),
      m'.read there count = (m.read there count).map fun _ => UInt32.ofNat
        (Bytes.number
          ((List.range count).map fun i => m.overlaid address value size (there.toNat + i)))
  /-- Instructions access the memory so, and where they cannot they change nothing. -/
  run {δ : Type} (p : Processor δ) (own : p.memory = m) (address value : Word) (size : Nat) :
    (Execution.readMemory address size).run p =
        (match m.read address size with
        | .ok v => .ok v p
        | .error f => .error f p) ∧
      (Execution.writeMemory address value size).run p =
        match m.write address value size with
        | .ok m' => .ok () { p with memory := m' }
        | .error f => .error f p
  peek (address : Word) {size : Nat} (access : isAccessSize size) :
    m.peek? address size = (m.read address size).toOption
  poke (address value : Word) {size : Nat} (access : isAccessSize size) :
    m.poke? address value size = (m.write address value size).toOption

section Accesses

variable {m : Memory} {address : Word} {size : Nat}

theorem load_eq_number (lower : base ≤ address.toNat) :
    m.load address size =
      UInt32.ofNat (Bytes.number ((List.range size).map fun i => m.byteAt (address.toNat + i))) := by
  have place (i : Nat) : address.toNat + i - base = address.toNat - base + i := by omega
  simp only [load, Bytes.load_eq_number, byteAt, place]

theorem byteAt_store (written : m.inRange address size) (value : Word) {place : Nat}
    (lower : base ≤ place) :
    (m.store address value size).byteAt place = m.overlaid address value size place := by
  obtain ⟨above, below⟩ := inRange_iff.mp written
  rw [Memory.size] at below
  have offset : place - base - (address.toNat - base) = place - address.toNat := by omega
  rw [byteAt, store, Bytes.byteAt_store, overlaid, offset, Word.byte, byteAt]
  exact if_congr (by omega) rfl rfl

theorem toNat_load (access : isAccessSize size) :
    (m.load address size).toNat = Bytes.load m.bytes (address.toNat - base) size := by
  have small := Bytes.load_lt m.bytes (address.toNat - base) size
  have bound := Word.modulus_le size
  rw [← Word.modulus_of_accessSize access] at small
  rw [load, UInt32.toNat_ofNat', Nat.mod_eq_of_lt (Nat.lt_of_lt_of_le small bound)]

end Accesses

theorem storesBytes (m : Memory) : m.StoresBytes where
  readable address size access := by
    rw [← inRange_iff]
    simp [read_eq_ok_iff, readFault?_eq_none_iff, access]
  writable address value size access := by
    rw [← inRange_iff]
    simp [write_eq_ok_iff, writeFault?_eq_none_iff, readFault?_eq_none_iff, access]
  value {address v size} found := by
    obtain ⟨readable, rfl⟩ := read_eq_ok_iff.mp found
    obtain ⟨inside, access⟩ := readFault?_eq_none_iff.mp readable
    have lower := (inRange_iff.mp inside).1
    have place (i : Nat) : address.toNat + i - base = address.toNat - base + i := by omega
    simp only [toNat_load access, Bytes.load_eq_number, byteAt, place]
  overlay {address value size m'} written := by
    obtain ⟨writable, rfl⟩ := write_eq_ok_iff.mp written
    refine ⟨size_store .., fun there count => ?_⟩
    have inside := (readFault?_eq_none_iff.mp (writeFault?_eq_none_iff.mp writable)).1
    rw [read, read, readFault?_store]
    cases readable : m.readFault? there count with
    | some f => rfl
    | none =>
        have lower := (inRange_iff.mp (readFault?_eq_none_iff.mp readable).1).1
        have bytes (i : Nat) := byteAt_store inside value (Nat.le_add_right_of_le (k := i) lower)
        simp only [load_eq_number lower, bytes]
        rfl
  run p own address value size := by
    subst own
    constructor
    · rw [read]
      change Execution.readMemory address size p = _
      rw [Execution.readMemory]
      cases p.memory.readFault? address size <;> rfl
    · rw [write]
      change Execution.writeMemory address value size p = _
      rw [Execution.writeMemory]
      cases p.memory.writeFault? address size <;> rfl
  peek address size access := by
    rw [peek?, debugSize_of_isAccessSize access, read, readFault?, access]
    cases m.inRange address size <;> rfl
  poke address value size access := by
    rw [poke?, debugSize_of_isAccessSize access, write, writeFault?, access]
    cases m.inRange address size <;> rfl

/-- Fresh memory stays of its size under edits. Each byte is what the last edit has put there, and
zero before that; accesses combine the bytes that they cover. -/
theorem storesBytes_after_edits {n : Nat} (bounded : n ≤ 1 <<< 30) (edits : List Edit) :
    let m := edits.foldl edited (zero n)
    m.size = n ∧ m.limit.toNat = base + n ∧
    (∀ place, base ≤ place →
      m.byteAt place = (edits.reverse.findSome? (·.byte? n place)).getD 0) ∧
    (∀ e : Edit, (m.edit? e).isSome = e.accepted n) ∧ m.StoresBytes := by
  intro m
  have zeroSize : (zero n).size = n := Bytes.size_zeros n
  have size : m.size = n := (size_foldl_edited _ _).trans zeroSize
  refine ⟨size, ?_, fun place lower => ?_, fun e => ?_, m.storesBytes⟩
  · have addressable : m.Addressable := by
      rw [Addressable, size, base]
      omega
    rw [toNat_limit addressable, size]
  · have blank : (zero n).byteAt place = 0 := Bytes.byteAt_zeros ..
    have latest := byteAt_foldl_edited (zero n) edits lower
    rwa [zeroSize, blank] at latest
  · rw [isSome_edit?, size]

/-- A word in a double word, behind three bytes that both cover, and a write that does not fit. -/
theorem storesBytes_after_edits_overlapping :
    let edits : List Edit := [.fill 1025 [1, 2, 3], .write 1024 0x11223344 4, .poke 1026 0xABCD 2,
      .write 1039 5 2]
    let m := edits.foldl edited (zero 16)
    16 ≤ 1 <<< 30 ∧ m.size = 16 ∧ m.byteAt 1024 = 0x44 ∧ m.byteAt 1026 = 0xCD ∧ m.byteAt 1039 = 0 ∧
      m.read 1024 4 = .ok 0xABCD3344 := by
  intro edits m
  have bounded : 16 ≤ 1 <<< 30 := by decide
  obtain ⟨size, -, bytes, -, stores⟩ := storesBytes_after_edits bounded edits
  have first : m.byteAt 1024 = 0x44 := bytes 1024 (by decide)
  have second : m.byteAt 1025 = 0x33 := bytes 1025 (by decide)
  have third : m.byteAt 1026 = 0xCD := bytes 1026 (by decide)
  have fourth : m.byteAt 1027 = 0xAB := bytes 1027 (by decide)
  have access : isAccessSize 4 := rfl
  obtain ⟨v, found⟩ := (stores.readable 1024 access).mpr (by rw [size]; decide)
  have value : v.toNat =
      Bytes.number [m.byteAt 1024, m.byteAt 1025, m.byteAt 1026, m.byteAt 1027] := stores.value found
  rw [first, second, third, fourth] at value
  have whole : v = 0xABCD3344 := UInt32.toNat_inj.mp (value.trans (by decide))
  exact ⟨bounded, size, first, third, bytes 1039 (by decide), whole ▸ found⟩

end Memory

end ReducedX86
