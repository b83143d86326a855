import ReducedX86.Device.Script
import ReducedX86.Proofs.Assembly.Artifacts
import ReducedX86.Proofs.Processor.Equipment
import ReducedX86.Proofs.Processor.SingleStepping

/-!
The addresses of data and those of instructions.

Instructions stand behind the data, four addresses to each. What stands at an address is found by
its distance from the limit. The distance wraps, but below the limit it wraps to so much that no
program of half a billion instructions reaches there. Data is not fetched, then, and instructions
are neither read nor written, whatever has run before.
-/
namespace ReducedX86

namespace Memory

/-- An instruction or a debugger can read or write `size` bytes at the address. -/
inductive Accessed (m : Memory) (address : Word) (size : Nat) : Prop
  | read {value : Word} (read : m.read address size = .ok value)
  | written {value : Word} {m' : Memory} (written : m.write address value size = .ok m')
  | peeked {value : Word} (peeked : m.peek? address size = some value)
  | poked {value : Word} {m' : Memory} (poked : m.poke? address value size = some m')

variable {m : Memory} {address : Word} {size : Nat}

/-- What is accessed has a byte at its address. -/
theorem Accessed.inRange_one (accessed : m.Accessed address size) : m.inRange address 1 := by
  have narrowed {size : Nat} (inside : m.inRange address size) (access : isAccessSize size) :
      m.inRange address 1 := by
    have whole := inRange_iff.mp inside
    simp only [isAccessSize, Bool.or_eq_true, beq_iff_eq] at access
    exact inRange_iff.mpr (by omega)
  cases accessed with
  | read read =>
      obtain ⟨inside, access⟩ := readFault?_eq_none_iff.mp (read_eq_ok_iff.mp read).1
      exact narrowed inside access
  | written written =>
      have readable := writeFault?_eq_none_iff.mp (write_eq_ok_iff.mp written).1
      obtain ⟨inside, access⟩ := readFault?_eq_none_iff.mp readable
      exact narrowed inside access
  | peeked peeked =>
      rw [peek?] at peeked
      split at peeked
      · rename_i inside
        exact narrowed inside (isAccessSize_debugSize size)
      · cases peeked
  | poked poked =>
      rw [poke?] at poked
      split at poked
      · rename_i inside
        exact narrowed inside (isAccessSize_debugSize size)
      · cases poked

end Memory

namespace Processor

variable {δ : Type} {p : Processor δ}

/-- The address is one of those that the instructions take. -/
def Holds (p : Processor δ) (address : Word) : Prop :=
  p.limit.toNat ≤ address.toNat ∧ address.toNat < p.limit.toNat + 4 * p.program.size

/-- Which instructions are found, and that no data is where they are. -/
structure KeepsApart (p : Processor δ) : Prop where
  limit : p.limit.toNat = Memory.base + p.memory.size
  present (address : Word) : (p.instructionAt? address).isSome ↔ p.Holds address
  which {address : Word} {i : Instruction} (found : p.instructionAt? address = some i) :
    p.program[(address.toNat - p.limit.toNat) / 4]? = some i
  numbered {n : Nat} (inside : n < p.program.size) :
    (p.instructionAddress n).toNat = p.limit.toNat + 4 * n ∧
      p.instructionAt? (p.instructionAddress n) = some p.program[n]
  apart {address : Word} {size : Nat} (accessed : p.memory.Accessed address size) :
    p.instructionAt? address = none
  /-- No instruction has a byte in common with the data. -/
  beside {address : Word} {size k : Nat} (inside : p.memory.inRange address size)
      (within : k < size) : p.instructionAt? (address + UInt32.ofNat k) = none

section Places

/-- Half a billion instructions fit behind the largest memory. -/
def Roomy (p : Processor δ) : Prop :=
  Settings.isMemorySize p.memory.size ∧ p.program.size ≤ 1 <<< 29

theorem memorySize_le (roomy : p.Roomy) : p.memory.size ≤ 1 <<< 30 := by
  have valid := roomy.1
  simp only [Settings.isMemorySize, Bool.and_eq_true, decide_eq_true_eq] at valid
  exact valid.2

theorem toNat_limit (roomy : p.Roomy) : p.limit.toNat = Memory.base + p.memory.size := by
  have small := memorySize_le roomy
  apply Memory.toNat_limit
  rw [Memory.Addressable, Memory.base]
  omega

/-- The number of an address, from the limit on and below it. -/
theorem toNat_sub_limit_div (p : Processor δ) (address : Word) :
    ((address - p.limit) >>> 2).toNat =
      (if p.limit.toNat ≤ address.toNat then address.toNat - p.limit.toNat
      else 0x100000000 + address.toNat - p.limit.toNat) / 4 := by
  have first := address.toNat_lt
  have second := p.limit.toNat_lt
  rw [UInt32.toNat_shiftRight, UInt32.toNat_sub, Nat.shiftRight_eq_div_pow]
  change _ / 4 = _
  congr 1
  split <;> omega

theorem instructionAt?_eq (roomy : p.Roomy) (address : Word) :
    p.instructionAt? address =
      if p.limit.toNat ≤ address.toNat then p.program[(address.toNat - p.limit.toNat) / 4]?
      else none := by
  rw [instructionAt?, toNat_sub_limit_div]
  split
  · rfl
  · -- The wrapped number is at least three quarters of a billion.
    have small := memorySize_le roomy
    have limit := toNat_limit roomy
    have bound := roomy.2
    rw [Memory.base] at limit
    exact Array.getElem?_eq_none (by omega)

theorem isSome_instructionAt?_iff (roomy : p.Roomy) (address : Word) :
    (p.instructionAt? address).isSome ↔ p.Holds address := by
  rw [instructionAt?_eq roomy, Holds]
  split
  · rename_i above
    rw [Option.isSome_iff_ne_none, ne_eq, Array.getElem?_eq_none_iff]
    omega
  · rename_i below
    exact iff_of_false Bool.false_ne_true fun held => below held.1

theorem instructionAt?_of_inRange (roomy : p.Roomy) {address : Word}
    (inside : p.memory.inRange address 1) : p.instructionAt? address = none := by
  have upper := (Memory.inRange_iff.mp inside).2
  rw [instructionAt?_eq roomy, if_neg]
  rw [toNat_limit roomy]
  omega

theorem keepsApart (roomy : p.Roomy) : p.KeepsApart where
  limit := toNat_limit roomy
  present := isSome_instructionAt?_iff roomy
  which {address i} found := by
    rw [instructionAt?_eq roomy] at found
    split at found
    · exact found
    · cases found
  numbered {n} inside := by
    have small := memorySize_le roomy
    have limit := toNat_limit roomy
    have bound := roomy.2
    rw [Memory.base] at limit
    have address : (p.instructionAddress n).toNat = p.limit.toNat + 4 * n :=
      Program.toNat_instructionAddress (by rw [UInt32.size]; omega)
    have number : (p.limit.toNat + 4 * n - p.limit.toNat) / 4 = n := by omega
    refine ⟨address, ?_⟩
    rw [instructionAt?_eq roomy, address, if_pos (Nat.le_add_right ..), number]
    exact Array.getElem?_eq_getElem inside
  apart {address size} accessed := instructionAt?_of_inRange roomy accessed.inRange_one
  beside {address size k} inside within := by
    obtain ⟨lower, upper⟩ := Memory.inRange_iff.mp inside
    have small := memorySize_le roomy
    have base : Memory.base = 1024 := rfl
    have place : (address + UInt32.ofNat k).toNat = address.toNat + k := by
      rw [UInt32.toNat_add, UInt32.toNat_ofNat']
      omega
    apply instructionAt?_of_inRange roomy
    rw [Memory.inRange_iff, place]
    omega

end Places

/-- What is laid out in the address space. -/
def laidOut (p : Processor δ) : Array Instruction × Nat := (p.program, p.memory.size)

variable [PortDevice δ]

theorem laidOut_step (stepping : Bool) (p : Processor δ) :
    (step stepping p).2.laidOut = p.laidOut :=
  Prod.ext (program_step stepping p) (memorySize_step stepping p)

theorem laidOut_stepped (stepping : Nat → Bool) (clock : Nat → Reading) (p : Processor δ)
    (n : Nat) :
    (stepped stepping clock p n).laidOut = p.laidOut := by
  induction n with
  | zero => rfl
  | succ n ih =>
      rw [stepped, laidOut_step]
      exact ih

/-- However many steps are taken, the instructions stay those that were loaded. What is fetched is
one of them, by the distance from the limit, and is no data. -/
theorem instructions_beside_data (valid : Settings.isMemorySize p.memory.size)
    (bounded : p.program.size ≤ 1 <<< 29) (stepping : Nat → Bool) (clock : Nat → Reading)
    (n : Nat) :
    let q := stepped stepping clock p n
    q.program = p.program ∧ q.memory.size = p.memory.size ∧ q.KeepsApart := by
  intro q
  have kept := laidOut_stepped stepping clock p n
  have program : q.program = p.program := congrArg Prod.fst kept
  have size : q.memory.size = p.memory.size := congrArg Prod.snd kept
  have roomy : q.Roomy := by
    rw [Roomy, program, size]
    exact ⟨valid, bounded⟩
  exact ⟨program, size, keepsApart roomy⟩

/-- The last byte of data, and the last of the second instruction, after two steps. -/
theorem instructions_beside_data_two :
    let first : Instruction := { op := .stack .pushfd }
    let second : Instruction := { op := .stack .popfd }
    let p := (new 16 ({} : Script) default).load #[first, second]
    let q := stepped (· == 1) (fun n => { instant := n }) p 2
    Settings.isMemorySize p.memory.size ∧ p.program.size ≤ 1 <<< 29 ∧
      q.memory.read 1039 1 = .ok (q.memory.load 1039 1) ∧ q.instructionAt? 1039 = none ∧
      q.instructionAt? 1047 = some second ∧ q.instructionAt? 1048 = none := by
  intro first second p q
  have size : p.memory.size = 16 := Bytes.size_zeros 16
  have valid : Settings.isMemorySize p.memory.size := by
    rw [size]
    decide
  have bounded : p.program.size ≤ 1 <<< 29 := by decide
  obtain ⟨program, same, keepsApart⟩ :=
    instructions_beside_data valid bounded (· == 1) (fun n => { instant := n }) 2
  have limit : q.limit.toNat = 1040 := by
    rw [keepsApart.limit, same, size]
    rfl
  have readable : q.memory.readFault? 1039 1 = none := by
    refine Memory.readFault?_eq_none_iff.mpr ⟨Memory.inRange_iff.mpr ?_, rfl⟩
    rw [same, size]
    decide
  have read : q.memory.read 1039 1 = .ok (q.memory.load 1039 1) :=
    Memory.read_eq_ok_iff.mpr ⟨readable, rfl⟩
  have holds (address : Word) : q.Holds address ↔ 1040 ≤ address.toNat ∧ address.toNat < 1048 := by
    rw [Holds, limit, program]
    rfl
  obtain ⟨i, found⟩ := Option.isSome_iff_exists.mp
    ((keepsApart.present 1047).mpr ((holds 1047).mpr (by decide)))
  have distance : ((1047 : Word).toNat - 1040) / 4 = 1 := by decide
  have which : p.program[1]? = some i := by
    rw [← distance, ← program, ← limit]
    exact keepsApart.which found
  obtain rfl : second = i := Option.some.inj which
  have absent : q.instructionAt? 1048 = none := by
    rw [← Option.not_isSome_iff_eq_none, keepsApart.present, holds]
    decide
  exact ⟨valid, bounded, read, keepsApart.apart (.read read), found, absent⟩

end Processor

end ReducedX86
