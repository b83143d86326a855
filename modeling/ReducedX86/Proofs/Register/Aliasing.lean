import ReducedX86.Processor
import ReducedX86.Proofs.Register
import ReducedX86.Proofs.Word

/-!
How the registers share their bytes.

The bank is drawn slot by slot: a slot has its 32-bit register, and over the low bytes of that the
narrow ones. A value that is stored in one register is seen through another in the bytes where the
drawing has both, and in no others.
-/
namespace ReducedX86

namespace Register

/-! The drawing -/

/-- A slot whose low half has a name, and each byte of that half. -/
def general (whole half low high : Register) : List (Register × List Nat) :=
  [(whole, [0, 1, 2, 3]), (half, [0, 1]), (low, [0]), (high, [1])]

/-- A slot whose low half has a name. -/
def pointer (whole half : Register) : List (Register × List Nat) :=
  [(whole, [0, 1, 2, 3]), (half, [0, 1])]

/-- The registers of each slot, with the bytes of the slot that they show, the lowest one first. -/
def layout : List (List (Register × List Nat)) :=
  [general eax ax al ah, general ebx bx bl bh, general ecx cx cl ch, general edx dx dl dh,
    pointer esi si, pointer edi di, pointer esp sp, pointer ebp bp, [(eip, [0, 1, 2, 3])]]

/-- Byte `i` of the register is the byte at a place of a slot. -/
def Shows (r : Register) (i slot place : Nat) : Prop :=
  ∃ places, (r, places) ∈ layout.getD slot [] ∧ places[i]? = some place

/-- Byte `j` of one register and byte `i` of another are the same byte of the same slot. -/
def Coincide (r : Register) (j : Nat) (s : Register) (i : Nat) : Prop :=
  ∃ slot place, r.Shows j slot place ∧ s.Shows i slot place

/-- The registers of different slots. -/
def Foreign (r s : Register) : Prop :=
  ∀ slot, (∃ places, (r, places) ∈ layout.getD slot []) →
    ¬ ∃ places, (s, places) ∈ layout.getD slot []

/-! The drawing and the tables -/

theorem slot_bounds (r : Register) :
    r.slot < 9 ∧ 4 * r.slot ≤ r.offset ∧ r.offset + r.size ≤ 4 * r.slot + 4 := by
  cases r <;> decide

/-- The drawing has each register once, where slot, offset and size put it. -/
theorem mem_layout_iff {r : Register} {slot : Nat} {places : List Nat} :
    (r, places) ∈ layout.getD slot [] ↔
      slot = r.slot ∧ places = (List.range r.size).map (r.offset - 4 * r.slot + ·) := by
  constructor
  · intro drawn
    have every : ∀ k < 9, ∀ v ∈ layout.getD k [], k = v.1.slot ∧
        v.2 = (List.range v.1.size).map (v.1.offset - 4 * v.1.slot + ·) := by decide +kernel
    refine every slot ?_ _ drawn
    by_contra outside
    rw [List.getD_eq_default _ _ (Nat.le_of_not_lt outside)] at drawn
    exact List.not_mem_nil drawn
  · rintro ⟨rfl, rfl⟩
    cases r <;> decide

theorem shows_iff {r : Register} {i slot place : Nat} :
    r.Shows i slot place ↔
      slot = r.slot ∧ i < r.size ∧ place = r.offset - 4 * r.slot + i := by
  constructor
  · rintro ⟨places, drawn, here⟩
    obtain ⟨rfl, rfl⟩ := mem_layout_iff.mp drawn
    obtain ⟨inside, rfl⟩ := List.getElem?_eq_some_iff.mp here
    rw [List.length_map, List.length_range] at inside
    exact ⟨rfl, inside, by rw [List.getElem_map, List.getElem_range]⟩
  · rintro ⟨rfl, inside, rfl⟩
    refine ⟨_, mem_layout_iff.mpr ⟨rfl, rfl⟩, ?_⟩
    rw [List.getElem?_map, List.getElem?_range inside]
    rfl

/-- Bytes coincide where they are the same byte of the bank. -/
theorem coincide_iff {r s : Register} {j i : Nat} :
    r.Coincide j s i ↔ j < r.size ∧ i < s.size ∧ r.offset + j = s.offset + i := by
  have bounds := r.slot_bounds
  have bounds' := s.slot_bounds
  constructor
  · rintro ⟨slot, place, shown, shown'⟩
    obtain ⟨rfl, inside, rfl⟩ := shows_iff.mp shown
    obtain ⟨same, inside', here⟩ := shows_iff.mp shown'
    omega
  · rintro ⟨inside, inside', same⟩
    have slot : r.slot = s.slot := by omega
    exact ⟨_, _, shows_iff.mpr ⟨rfl, inside, rfl⟩, shows_iff.mpr ⟨slot, inside', by omega⟩⟩

theorem apart_of_foreign {r s : Register} (foreign : r.Foreign s) : r.Apart s := by
  have other : r.slot ≠ s.slot := fun same =>
    foreign r.slot ⟨_, mem_layout_iff.mpr ⟨rfl, rfl⟩⟩ ⟨_, mem_layout_iff.mpr ⟨same, rfl⟩⟩
  have bounds := r.slot_bounds
  have bounds' := s.slot_bounds
  rw [Apart]
  omega

/-- The instruction pointer has its slot alone. -/
theorem foreign_of_eip {r s : Register} (eip : r = .eip ∨ s = .eip) (other : r ≠ s) :
    r.Foreign s := by
  rintro slot ⟨places, drawn⟩ ⟨places', drawn'⟩
  have same := (mem_layout_iff.mp drawn).1.symm.trans (mem_layout_iff.mp drawn').1
  have alone : ∀ r ∈ all, r.slot = 8 → r = .eip := by decide
  rcases eip with rfl | rfl
  · exact other (alone s (mem_all s) same.symm).symm
  · exact other (alone r (mem_all r) same)

end Register

namespace RegisterFile

/-! What is seen of a stored value -/

/-- A register file has become another one by storing a value in a register. -/
structure Overlays (f : RegisterFile) (r : Register) (value : Word) (g : RegisterFile) : Prop where
  own : g.get r = value.truncate r.size
  shared {s : Register} {j i : Nat} (same : r.Coincide j s i) : (g.get s).byte i = value.byte j
  kept {s : Register} {i : Nat} (apart : ∀ j, ¬ r.Coincide j s i) :
    (g.get s).byte i = (f.get s).byte i
  /-- A register is the number of its bytes. -/
  combined (s : Register) : (g.get s).toNat = Bytes.number ((List.range s.size).map (g.get s).byte)
  foreign {s : Register} (foreign : r.Foreign s) : g.get s = f.get s

theorem byte_get (f : RegisterFile) (r : Register) (i : Nat) :
    (f.get r).byte i = if i < r.size then Bytes.byteAt f.bytes (r.offset + i) else 0 := by
  rw [Word.byte, toNat_get, Bytes.byte_load]

theorem toNat_get_eq_number (f : RegisterFile) (r : Register) :
    (f.get r).toNat = Bytes.number ((List.range r.size).map (f.get r).byte) := by
  rw [toNat_get, Bytes.load_eq_number]
  congr 1
  apply List.map_congr_left
  intro i inside
  rw [byte_get, if_pos (List.mem_range.mp inside)]

/-- A byte of a register after a store, by its place in the bank. -/
theorem byte_get_set (f : RegisterFile) (r s : Register) (value : Word) (i : Nat) :
    ((f.set r value).get s).byte i =
      if i < s.size ∧ r.offset ≤ s.offset + i ∧ s.offset + i < r.offset + r.size then
        value.byte (s.offset + i - r.offset)
      else (f.get s).byte i := by
  have bank := s.offset_add_size_le
  rw [byte_get, byte_get, set, Bytes.byteAt_store, f.size_bytes]
  by_cases inside : i < s.size
  · simp only [inside, if_true, true_and]
    exact if_congr (and_congr_right fun _ => and_iff_left (by omega)) rfl rfl
  · simp only [inside, if_false, false_and]

theorem set_overlays (f : RegisterFile) (r : Register) (value : Word) :
    f.Overlays r value (f.set r value) where
  own := f.get_set_self r value
  shared {s j i} same := by
    obtain ⟨inside, inside', place⟩ := Register.coincide_iff.mp same
    have byte : s.offset + i - r.offset = j := by omega
    rw [byte_get_set, if_pos (by omega), byte]
  kept {s i} apart := by
    rw [byte_get_set, if_neg]
    rintro ⟨inside, lower, upper⟩
    exact apart (s.offset + i - r.offset) (Register.coincide_iff.mpr (by omega))
  combined s := toNat_get_eq_number ..
  foreign {s} foreign := f.get_set_of_apart (Register.apart_of_foreign foreign) value

/-- A value that an instruction stores in a register is cut to its width. Every register then has
the bytes of the value where the drawing lets it share them, and its own bytes elsewhere. -/
theorem store_seen_through_views (f : RegisterFile) (r : Register) (value : Word) :
    f.Overlays r value (f.set r value) ∧
    (∀ s, (r = .eip ∨ s = .eip) → r ≠ s → r.Foreign s) ∧
    ∀ {δ : Type} (p : Processor δ), p.registers = f →
      (Execution.setReg r value).run p =
        .ok ((f.set r value).get r) { p with registers := f.set r value } := by
  refine ⟨f.set_overlays r value, fun s => Register.foreign_of_eip, ?_⟩
  rintro δ p rfl
  rw [get_set_self]
  rfl

/-- A high byte within a 16-bit view, with one bit too many. -/
theorem store_seen_through_views_ah :
    let f := zero.set .eax 0x123456AB
    let g := f.set .ah 0x1FF
    Register.Coincide .ah 0 .ax 1 ∧ Register.Foreign .ah .eip ∧
      g.get .ah = 0xFF ∧ g.get .ax = 0xFFAB ∧ g.get .eip = 0 := by
  intro f g
  have coincide : Register.Coincide .ah 0 .ax 1 :=
    ⟨0, 1, ⟨[1], by decide, rfl⟩, ⟨[0, 1], by decide, rfl⟩⟩
  have apart (j : Nat) : ¬ Register.Coincide .ah j .ax 0 := fun same => by
    have place := (Register.coincide_iff.mp same).2.2
    simp only [Register.offset, Register.slot] at place
    omega
  have low : Register.Coincide .eax 0 .ax 0 :=
    ⟨0, 0, ⟨[0, 1, 2, 3], by decide, rfl⟩, ⟨[0, 1], by decide, rfl⟩⟩
  obtain ⟨whole, pointer, -⟩ := store_seen_through_views zero .eax 0x123456AB
  obtain ⟨high, foreign, -⟩ := store_seen_through_views f .ah 0x1FF
  have eip := foreign .eip (.inr rfl) (by decide)
  have first : (g.get .ax).byte 0 = 0xAB := (high.kept apart).trans (whole.shared low)
  have second : (g.get .ax).byte 1 = 0xFF := high.shared coincide
  have ax : (g.get .ax).toNat = Bytes.number [(g.get .ax).byte 0, (g.get .ax).byte 1] :=
    high.combined .ax
  rw [first, second] at ax
  have blank : f.get .eip = 0 := whole.foreign (pointer .eip (.inr rfl) (by decide))
  exact ⟨coincide, eip, high.own, UInt32.toNat_inj.mp ax, (high.foreign eip).trans blank⟩

end RegisterFile

end ReducedX86
