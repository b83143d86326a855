import Mathlib.Data.List.Pairwise
import ReducedX86.Proofs.Assembly.Respelling
import ReducedX86.Proofs.Variable.Packing

/-!
The order of declaration makes no difference.

Tables with the same declarations give every name the same variable once they are allocated. The
assembler looks variables up by name, and lays them out by address; so a source assembles to the same
program against both.
-/
namespace ReducedX86

namespace Program

theorem assemble_congr {table table' : VariableTable}
    (found : ∀ name, table'.find? name = table.find? name)
    (layout : (table'.entries.mergeSort fun a b => a.address ≤ b.address) =
      table.entries.mergeSort fun a b => a.address ≤ b.address)
    (source : String) (limit : Word) : assemble source table limit = assemble source table' limit := by
  rw [assemble, assemble, Assembly.ofTokens_eq, Assembly.ofTokens_eq,
    Assembly.assembled_congr found limit]
  simp only [Assembly.artifacts, layout]

end Program

namespace VariableTable

variable {t u allocated other : VariableTable} {total : Nat}

/-- Variables that fill some memory are in one order only by their addresses. -/
theorem Packed.layout_eq_of_perm (packed : t.Packed total) (sized : ∀ v ∈ t.entries, 0 < v.size)
    (perm : t.entries.Perm u.entries) :
    (t.entries.mergeSort fun a b => a.address ≤ b.address) =
      u.entries.mergeSort fun a b => a.address ≤ b.address := by
  have same := (List.mergeSort_perm t.entries fun a b => a.address ≤ b.address).trans
    (perm.trans (List.mergeSort_perm u.entries fun a b => a.address ≤ b.address).symm)
  refine same.eq_of_pairwise (fun v w first second le ge => ?_) (pairwise_byAddress _)
    (pairwise_byAddress _)
  have member : v ∈ t.entries := List.mem_mergeSort.mp first
  have member' : w ∈ t.entries := perm.mem_iff.mpr (List.mem_mergeSort.mp second)
  have place : v.address = w.address := UInt32.le_antisymm le ge
  by_contra different
  have symmetric : Std.Symm fun v w : Variable => Disjoint (range v) (range w) :=
    ⟨fun _ _ apart => apart.symm⟩
  have apart := packed.apart.forall member member' different
  rw [range, range, ← place, Set.Ico_disjoint_Ico] at apart
  have first := sized v member
  have second := sized w member'
  omega

/-- Allocation leaves declarations as they are. -/
theorem declared_of_allocate {memorySize : Nat} (fits : t.allocate memorySize = .ok allocated) :
    allocated.declared = t.declared := by
  rw [(allocate_eq fits).2, declared, declared, readdressed, readdressed]
  exact congrArg VariableTable.mk List.map_map

theorem allocate_of_lt {memorySize : Nat} (exceeds : memorySize < t.totalSize) :
    t.allocate memorySize = .error t.totalSize := if_pos exceeds

theorem exists_allocate {memorySize : Nat} (within : t.totalSize ≤ memorySize) :
    ∃ allocated, t.allocate memorySize = .ok allocated := by
  rw [allocate, if_neg (Nat.not_lt_of_le within)]
  exact ⟨_, rfl⟩

/-- Tables with the same declarations get the same variables, or lack the same space. -/
theorem allocate_alike (sound : t.Sound) (sound' : u.Sound)
    (perm : t.declared.entries.Perm u.declared.entries) (memorySize : Nat) :
    (∃ allocated other, t.allocate memorySize = .ok allocated ∧
      u.allocate memorySize = .ok other ∧ allocated.entries.Perm other.entries) ∨
    ∃ total, t.allocate memorySize = .error total ∧ u.allocate memorySize = .error total := by
  have sum : t.totalSize = u.totalSize := calc
    t.totalSize = t.declared.totalSize := (totalSize_readdressed t _).symm
    _ = u.declared.totalSize := by rw [totalSize_eq, totalSize_eq, sizes_perm perm]
    _ = u.totalSize := totalSize_readdressed u _
  rcases Nat.lt_or_ge memorySize t.totalSize with exceeds | within
  · exact .inr ⟨_, allocate_of_lt exceeds, sum ▸ allocate_of_lt (sum ▸ exceeds)⟩
  · obtain ⟨allocated, fits⟩ := exists_allocate within
    obtain ⟨other, fits'⟩ := exists_allocate (t := u) (sum ▸ within)
    refine .inl ⟨allocated, other, fits, fits', (perm_layout sound fits).trans ?_⟩
    rw [layout_eq_of_perm sound perm]
    exact (perm_layout sound' fits').symm

/-- Allocation fails if the sizes exceed the memory, with their sum, and changes nothing then.
Otherwise the variables fill the memory from its base on, aligned with their sizes. Other tables with
the same declarations find the same variables under all names, and every source assembles to the same
program against them. -/
theorem allocation_packs (edits : List Edit) {memorySize : Nat} (small : memorySize ≤ 2 ^ 30) :
    let t := build edits
    let total := (t.entries.map Variable.size).sum
    (memorySize < total → t.allocate memorySize = .error total ∧
      ∀ source, Program.assembleIn source t memorySize =
        (.error ⟨.notEnoughSpace total, none⟩, t)) ∧
    (total ≤ memorySize → ∃ allocated, t.allocate memorySize = .ok allocated ∧
      allocated.declared = t.declared ∧ allocated.Packed total) ∧
    ∀ edits', t.declared.entries.Perm (build edits').declared.entries →
      (t.allocate memorySize).map find? = ((build edits').allocate memorySize).map find? ∧
      ∀ source, (Program.assembleIn source t memorySize).1 =
        (Program.assembleIn source (build edits') memorySize).1 := by
  intro t total
  have sound : t.Sound := sound_build edits
  have sum : t.totalSize = total := totalSize_eq t
  have small : Memory.base + memorySize < 2 ^ 32 := by
    rw [Memory.base]
    omega
  refine ⟨fun exceeds => ?_, fun within => ?_, fun edits' perm => ?_⟩
  · have fails : t.allocate memorySize = .error total := by
      rw [← sum] at exceeds ⊢
      exact allocate_of_lt exceeds
    refine ⟨fails, fun source => ?_⟩
    rw [Program.assembleIn, fails]
  · obtain ⟨allocated, fits⟩ := exists_allocate (sum ▸ within)
    exact ⟨allocated, fits, declared_of_allocate fits, packed_of_allocate sound small fits⟩
  · have sound' := sound_build edits'
    rcases allocate_alike sound sound' perm memorySize with
      ⟨allocated, other, fits, fits', perm⟩ | ⟨lacking, fails, fails'⟩
    · have kept : allocated.Sound := sound.allocate fits
      have kept' : other.Sound := sound'.allocate fits'
      have found (name : String) : other.find? name = allocated.find? name :=
        (kept.find?_eq_of_perm kept' perm name).symm
      have packed := packed_of_allocate sound small fits
      have laidOut := (packed.layout_eq_of_perm kept.sized perm).symm
      refine ⟨?_, fun source => ?_⟩
      · rw [fits, fits']
        exact congrArg Except.ok (funext found).symm
      · rw [Program.assembleIn, Program.assembleIn, fits, fits']
        exact Program.assemble_congr found laidOut source _
    · refine ⟨by rw [fails, fails'], fun source => ?_⟩
      rw [Program.assembleIn, Program.assembleIn, fails, fails']

theorem allocation_packs_swapped :
    let edits : List Edit :=
      [.add { name := "flag", size := 1 } 64, .add { name := "Sum", size := 4 } 64, .allocate 64]
    let edits' : List Edit :=
      [.add { name := "Sum", size := 4 } 64, .add { name := "old", size := 2 } 64, .remove "OLD",
        .add { name := "flag", size := 1 } 64]
    (build edits).allocate 4 = .error 5 ∧
    (∃ allocated, (build edits).allocate 64 = .ok allocated ∧ allocated.Packed 5) ∧
    (build edits).declared.entries ≠ (build edits').declared.entries ∧
    ∀ source, (Program.assembleIn source (build edits) 64).1 =
      (Program.assembleIn source (build edits') 64).1 := by
  intro edits edits'
  have swapped : (build edits).declared.entries.Perm (build edits').declared.entries := by
    decide +kernel
  have total : ((build edits).entries.map Variable.size).sum = 5 := by decide +kernel
  obtain ⟨lacks, -, -⟩ := allocation_packs edits (by decide : 4 ≤ 2 ^ 30)
  obtain ⟨-, packs, alike⟩ := allocation_packs edits (by decide : 64 ≤ 2 ^ 30)
  rw [total] at lacks packs
  obtain ⟨allocated, fits, -, packed⟩ := packs (by decide)
  refine ⟨(lacks (by decide)).1, ⟨allocated, fits, packed⟩, by decide +kernel, ?_⟩
  exact (alike edits' swapped).2

end VariableTable

end ReducedX86
