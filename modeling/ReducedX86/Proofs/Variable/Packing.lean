import Mathlib.Algebra.Ring.Nat
import Mathlib.Data.List.Nodup
import Mathlib.Data.Prod.Lex
import Mathlib.Data.Set.Lattice
import Mathlib.Data.String.Basic
import Mathlib.Order.CompletePartialOrder
import Mathlib.Order.Interval.Set.Disjoint
import ReducedX86.Proofs.Variable.Allocation

/-!
How allocation packs the variables of a table.

The variables stand one behind the other, in an order that depends on their sizes and names only.
Multiples of four come first and odd sizes last, so that every size finds a place that suits it; and
tables with the same declarations are laid out alike, in whatever order they were declared.
-/
namespace ReducedX86

namespace VariableTable

/-! The order of allocation -/

/-- What the order of allocation looks at. -/
def rank (v : Variable) : ℕ ×ₗ ℕ ×ₗ String ×ₗ String :=
  toLex (sizeRank v.size, toLex (v.size, toLex (key v.name, v.name)))

theorem allocatedBefore_iff (a b : Variable) : allocatedBefore a b ↔ rank a ≤ rank b := by
  simp only [allocatedBefore, rank, Prod.Lex.le_iff, ofLex_toLex, Bool.or_eq_true, Bool.and_eq_true,
    beq_iff_eq, decide_eq_true_eq]

theorem pairwise_sorted (vs : List Variable) :
    (vs.mergeSort allocatedBefore).Pairwise fun a b => rank a ≤ rank b := by
  have sorted : (vs.mergeSort allocatedBefore).Pairwise (allocatedBefore · ·) :=
    List.pairwise_mergeSort
      (fun a b c first second => by
        rw [allocatedBefore_iff] at first second ⊢
        exact le_trans first second)
      (fun a b => by
        rw [Bool.or_eq_true, allocatedBefore_iff, allocatedBefore_iff]
        exact le_total (rank a) (rank b))
      vs
  exact sorted.imp fun {a b} => (allocatedBefore_iff a b).mp

theorem key_eq_of_rank_eq {a b : Variable} (same : rank a = rank b) : key a.name = key b.name := by
  simp only [rank, toLex_inj, Prod.mk.injEq] at same
  exact same.2.2.1

/-- Variables with different names are put in one order only. -/
theorem sorted_eq_of_perm {vs ws : List Variable} (distinct : (vs.map fun v => key v.name).Nodup)
    (perm : vs.Perm ws) : vs.mergeSort allocatedBefore = ws.mergeSort allocatedBefore := by
  have sorted := (List.mergeSort_perm vs allocatedBefore).trans
    (perm.trans (List.mergeSort_perm ws allocatedBefore).symm)
  refine sorted.eq_of_pairwise ?_ (pairwise_sorted vs) (pairwise_sorted ws)
  intro a b first second le ge
  have declared : a ∈ vs := List.mem_mergeSort.mp first
  have declared' : b ∈ vs := perm.mem_iff.mpr (List.mem_mergeSort.mp second)
  exact List.inj_on_of_nodup_map distinct declared declared' (key_eq_of_rank_eq (le_antisymm le ge))

/-! Variables one behind the other -/

/-- The variables at their places, the first at `start`. -/
def laid (start : Word) : List Variable → List Variable
  | [] => []
  | v :: rest => { v with address := start } :: laid (start + UInt32.ofNat v.size) rest

theorem map_moved_place {vs : List Variable} (distinct : (vs.map fun v => key v.name).Nodup)
    (start : Word) :
    vs.map (moved fun v => ((place start vs).lookup (key v.name)).getD v.address) =
      laid start vs := by
  induction vs generalizing start with
  | nil => rfl
  | cons v rest ih =>
      obtain ⟨fresh, distinct⟩ := List.nodup_cons.mp distinct
      have first : (place start (v :: rest)).lookup (key v.name) = some start := by
        rw [place, List.lookup_cons, beq_self_eq_true]
      have later : rest.map (moved fun w =>
          ((place start (v :: rest)).lookup (key w.name)).getD w.address) =
            laid (start + UInt32.ofNat v.size) rest := by
        rw [← ih distinct]
        refine List.map_congr_left fun w member => ?_
        have other : (key w.name == key v.name) = false :=
          beq_false_of_ne fun same => fresh (List.mem_map.mpr ⟨w, member, same⟩)
        rw [moved, moved, place, List.lookup_cons, other]
      rw [List.map_cons, later, moved, first]
      rfl

/-- The sum of the sizes. -/
def sizes (vs : List Variable) : Nat := (vs.map Variable.size).sum

theorem sizes_cons (v : Variable) (rest : List Variable) : sizes (v :: rest) = v.size + sizes rest :=
  List.sum_cons

theorem totalSize_eq (t : VariableTable) : t.totalSize = sizes t.entries := by
  rw [sizes, List.sum_eq_foldl, List.foldl_map, totalSize]

theorem sizes_perm {vs ws : List Variable} (perm : vs.Perm ws) : sizes vs = sizes ws :=
  (perm.map Variable.size).sum_nat

theorem toNat_next {start : Word} {size rest : Nat} (room : start.toNat + (size + rest) < 2 ^ 32) :
    (start + UInt32.ofNat size).toNat = start.toNat + size := by
  rw [UInt32.toNat_add, UInt32.toNat_ofNat']
  omega

section Laid

variable {vs : List Variable}

theorem start_le_of_mem_laid {start : Word} (room : start.toNat + sizes vs < 2 ^ 32) {v : Variable}
    (member : v ∈ laid start vs) : start.toNat ≤ v.address.toNat := by
  induction vs generalizing start with
  | nil => cases member
  | cons w rest ih =>
      rw [sizes_cons] at room
      have next := toNat_next room
      cases member with
      | head => exact Nat.le_refl _
      | tail _ later =>
          have bound := ih (by omega) later
          omega

theorem pairwise_laid {start : Word} (room : start.toNat + sizes vs < 2 ^ 32) :
    (laid start vs).Pairwise fun v w => v.address.toNat + v.size ≤ w.address.toNat := by
  induction vs generalizing start with
  | nil => exact .nil
  | cons v rest ih =>
      rw [sizes_cons] at room
      have next := toNat_next room
      refine .cons (fun w later => ?_) (ih (by omega))
      have bound := start_le_of_mem_laid (by omega) later
      change start.toNat + v.size ≤ w.address.toNat
      omega

theorem exists_mem_laid_iff {start : Word} (room : start.toNat + sizes vs < 2 ^ 32) (place : Nat) :
    (∃ v ∈ laid start vs, v.address.toNat ≤ place ∧ place < v.address.toNat + v.size) ↔
      start.toNat ≤ place ∧ place < start.toNat + sizes vs := by
  induction vs generalizing start with
  | nil => simp [laid, sizes]
  | cons v rest ih =>
      rw [sizes_cons] at room
      have next := toNat_next room
      have later := @ih (start + UInt32.ofNat v.size) (by omega)
      simp only [laid, List.mem_cons, exists_eq_or_imp, later, sizes_cons, next]
      omega

/-- A start suits variables if it is a multiple of four, or at least even, whenever a size is. -/
structure Suits (start : Nat) (vs : List Variable) : Prop where
  quad : ∀ v ∈ vs, 4 ∣ v.size → 4 ∣ start
  pair : ∀ v ∈ vs, 2 ∣ v.size → 2 ∣ start

/-- Multiples of four rank first, then the other even sizes, then the odd ones. -/
theorem sizeRank_cases (size : Nat) :
    (sizeRank size ≤ 1 ∧ 4 ∣ size) ∨
    (1 < sizeRank size ∧ sizeRank size ≤ 3 ∧ ¬ 4 ∣ size ∧ 2 ∣ size) ∨
    (3 < sizeRank size ∧ ¬ 2 ∣ size) := by
  rw [sizeRank]
  split
  · omega
  · split
    · omega
    · split
      · omega
      · split <;> omega

theorem sizeRank_le_one_iff (size : Nat) : sizeRank size ≤ 1 ↔ 4 ∣ size := by
  have cases := sizeRank_cases size
  omega

theorem sizeRank_le_three_iff (size : Nat) : sizeRank size ≤ 3 ↔ 2 ∣ size := by
  have cases := sizeRank_cases size
  omega

theorem sizeRank_le {a b : Variable} (before : rank a ≤ rank b) :
    sizeRank a.size ≤ sizeRank b.size := by
  rw [rank, rank, Prod.Lex.le_iff] at before
  rcases before with less | ⟨same, -⟩
  · exact Nat.le_of_lt less
  · exact Nat.le_of_eq same

theorem Suits.next {start : Nat} {v : Variable} {rest : List Variable}
    (suits : Suits start (v :: rest)) (first : ∀ w ∈ rest, rank v ≤ rank w) :
    Suits (start + v.size) rest := by
  refine ⟨fun w member multiple => ?_, fun w member even => ?_⟩
  · have own : 4 ∣ v.size := (sizeRank_le_one_iff v.size).mp
      ((sizeRank_le (first w member)).trans ((sizeRank_le_one_iff w.size).mpr multiple))
    exact Nat.dvd_add (suits.quad v List.mem_cons_self own) own
  · have own : 2 ∣ v.size := (sizeRank_le_three_iff v.size).mp
      ((sizeRank_le (first w member)).trans ((sizeRank_le_three_iff w.size).mpr even))
    exact Nat.dvd_add (suits.pair v List.mem_cons_self own) own

theorem suits_laid {start : Word} (room : start.toNat + sizes vs < 2 ^ 32)
    (sorted : vs.Pairwise fun a b => rank a ≤ rank b) (suits : Suits start.toNat vs) :
    ∀ v ∈ laid start vs, Suits v.address.toNat [v] := by
  induction vs generalizing start with
  | nil => exact fun v member => absurd member List.not_mem_nil
  | cons v rest ih =>
      rw [sizes_cons] at room
      obtain ⟨first, sorted⟩ := List.pairwise_cons.mp sorted
      have next := toNat_next room
      intro w member
      cases member with
      | head =>
          refine ⟨fun u here => ?_, fun u here => ?_⟩
          · rw [List.mem_singleton.mp here]
            exact suits.quad v List.mem_cons_self
          · rw [List.mem_singleton.mp here]
            exact suits.pair v List.mem_cons_self
      | tail _ later =>
          refine ih (by omega) sorted ?_ w later
          rw [next]
          exact suits.next first

end Laid

/-! Tables -/

/-- Names are declared once, in whatever case they are written, and every size is counted. -/
structure Sound (t : VariableTable) : Prop where
  distinct : (t.entries.map fun v => key v.name).Nodup
  sized : ∀ v ∈ t.entries, 0 < v.size

/-- What can be done to a table. -/
inductive Edit
  | add (d : Declaration) (memorySize : Nat)
  | remove (name : String)
  | allocate (memorySize : Nat)

/-- The table after an edit; one that fails changes nothing. -/
def edited (t : VariableTable) : Edit → VariableTable
  | .add d memorySize => match t.add d memorySize with
    | .ok (_, t') => t'
    | .error _ => t
  | .remove name => (t.remove name).2
  | .allocate memorySize => match t.allocate memorySize with
    | .ok t' => t'
    | .error _ => t

/-- The table that edits make of an empty one. -/
def build (edits : List Edit) : VariableTable := edits.foldl edited {}

variable {t u : VariableTable}

theorem keys_readdressed (address : Variable → Word) :
    (t.readdressed address).entries.map (fun v => key v.name) =
      t.entries.map fun v => key v.name := List.map_map

theorem Sound.readdressed (sound : t.Sound) (address : Variable → Word) :
    (t.readdressed address).Sound where
  distinct := by
    rw [keys_readdressed]
    exact sound.distinct
  sized := List.forall_mem_map.mpr sound.sized

/-- What is declared has a new name and a size, and comes last. -/
theorem entries_add {d : Declaration} {memorySize : Nat} {v : Variable}
    (added : t.add d memorySize = .ok (v, u)) :
    t.find? d.name = none ∧ d.actualSize ≠ 0 ∧ u.entries = t.entries ++ [d.toVariable] := by
  rw [VariableTable.add] at added
  split at added
  · cases added
  · split at added
    · cases added
    · rename_i fresh
      split at added
      · cases added
      · split at added
        · cases added
        · rename_i counted
          cases added
          exact ⟨Option.not_isSome_iff_eq_none.mp fresh, counted, rfl⟩

theorem Sound.add (sound : t.Sound) {d : Declaration} {memorySize : Nat} {v : Variable}
    (added : t.add d memorySize = .ok (v, u)) : u.Sound := by
  obtain ⟨absent, counted, entries⟩ := entries_add added
  have other (w : Variable) (member : w ∈ t.entries) : key w.name ≠ key d.name := fun same =>
    List.find?_eq_none.mp absent w member (beq_iff_eq.mpr same)
  constructor
  · rw [entries, List.map_append, List.map_singleton]
    refine List.nodup_append.mpr ⟨sound.distinct, List.nodup_singleton _, ?_⟩
    intro k declared k' new
    obtain ⟨w, member, rfl⟩ := List.mem_map.mp declared
    rw [List.mem_singleton.mp new]
    exact other w member
  · rw [entries]
    intro w member
    rcases List.mem_append.mp member with declared | new
    · exact sound.sized w declared
    · rw [List.mem_singleton.mp new]
      exact Nat.pos_of_ne_zero counted

theorem Sound.remove (sound : t.Sound) (name : String) : (t.remove name).2.Sound := by
  rw [VariableTable.remove]
  split
  · exact sound
  · refine ⟨sound.distinct.sublist (List.filter_sublist.map _), fun v member => ?_⟩
    exact sound.sized v (List.mem_filter.mp member).1

theorem Sound.allocate (sound : t.Sound) {memorySize : Nat} (fits : t.allocate memorySize = .ok u) :
    u.Sound := by
  rw [(allocate_eq fits).2]
  exact sound.readdressed _

theorem Sound.edited (sound : t.Sound) (e : Edit) : (t.edited e).Sound := by
  cases e with
  | add d memorySize =>
      rw [VariableTable.edited]
      split
      · rename_i added
        exact sound.add added
      · exact sound
  | remove name => exact sound.remove name
  | allocate memorySize =>
      rw [VariableTable.edited]
      split
      · rename_i fits
        exact sound.allocate fits
      · exact sound

theorem sound_build (edits : List Edit) : (build edits).Sound := by
  have kept (edits : List Edit) (t : VariableTable) (sound : t.Sound) :
      (edits.foldl VariableTable.edited t).Sound := by
    induction edits generalizing t with
    | nil => exact sound
    | cons e rest ih => exact ih (t.edited e) (sound.edited e)
  exact kept edits {} ⟨.nil, fun v member => absurd member List.not_mem_nil⟩

/-- Names that are declared once are found, each as its own variable. -/
theorem Sound.find?_eq_some_iff (sound : t.Sound) {name : String} {v : Variable} :
    t.find? name = some v ↔ v ∈ t.entries ∧ key v.name = key name := by
  have named_of_find {w : Variable} (found : t.find? name = some w) : key w.name = key name := by
    rw [find?] at found
    have holds := List.find?_some found
    exact beq_iff_eq.mp holds
  constructor
  · intro found
    exact ⟨List.mem_of_find?_eq_some found, named_of_find found⟩
  · rintro ⟨member, named⟩
    cases found : t.find? name with
    | none => exact absurd (beq_iff_eq.mpr named) (List.find?_eq_none.mp found v member)
    | some w =>
        have other : w ∈ t.entries := List.mem_of_find?_eq_some found
        have same := (named_of_find found).trans named.symm
        rw [List.inj_on_of_nodup_map sound.distinct other member same]

theorem Sound.find?_eq_of_perm (sound : t.Sound) (sound' : u.Sound)
    (perm : t.entries.Perm u.entries) (name : String) : t.find? name = u.find? name := by
  apply Option.ext
  intro v
  rw [sound.find?_eq_some_iff, sound'.find?_eq_some_iff, perm.mem_iff]

/-! Layouts -/

/-- The variables of a table where allocation puts them, in the order of their addresses. -/
def layout (t : VariableTable) : List Variable :=
  laid (UInt32.ofNat Memory.base) (t.entries.mergeSort allocatedBefore)

/-- What was declared, wherever it has been put. -/
def declared (t : VariableTable) : VariableTable := t.readdressed fun _ => 0

theorem laid_map_moved (start : Word) (vs : List Variable) (address : Variable → Word) :
    laid start (vs.map (moved address)) = laid start vs := by
  induction vs generalizing start with
  | nil => rfl
  | cons v rest ih => exact congrArg ({ v with address := start } :: ·) (ih _)

theorem layout_readdressed (t : VariableTable) (address : Variable → Word) :
    (t.readdressed address).layout = t.layout := by
  have sorted : (t.entries.map (moved address)).mergeSort allocatedBefore =
      (t.entries.mergeSort allocatedBefore).map (moved address) :=
    (List.map_mergeSort (f := moved address) fun _ _ _ _ => rfl).symm
  rw [layout, layout, readdressed, sorted, laid_map_moved]

theorem layout_eq_of_perm (sound : t.Sound) (perm : t.declared.entries.Perm u.declared.entries) :
    t.layout = u.layout := by
  have distinct : t.declared.Sound := sound.readdressed fun _ => 0
  have sorted := sorted_eq_of_perm distinct.distinct perm
  calc t.layout = t.declared.layout := (layout_readdressed t _).symm
    _ = u.declared.layout := by rw [layout, sorted, layout]
    _ = u.layout := layout_readdressed u _

variable {allocated : VariableTable} {memorySize : Nat}

theorem perm_layout (sound : t.Sound) (fits : t.allocate memorySize = .ok allocated) :
    allocated.entries.Perm t.layout := by
  have sorted := List.mergeSort_perm t.entries allocatedBefore
  have distinct : ((t.entries.mergeSort allocatedBefore).map fun v => key v.name).Nodup :=
    (sorted.map _).nodup_iff.mpr sound.distinct
  rw [(allocate_eq fits).2, layout, ← map_moved_place distinct]
  exact (sorted.map _).symm

/-- The places of a variable. -/
def range (v : Variable) : Set ℕ := Set.Ico v.address.toNat (v.address.toNat + v.size)

/-- The variables fill `total` bytes from the base of memory on, and none is out of line with its
size. -/
structure Packed (t : VariableTable) (total : Nat) : Prop where
  apart : t.entries.Pairwise fun v w => Disjoint (range v) (range w)
  covers : ⋃ v ∈ t.entries, range v = Set.Ico 1024 (1024 + total)
  quad : ∀ v ∈ t.entries, 4 ∣ v.size → 4 ∣ v.address.toNat
  pair : ∀ v ∈ t.entries, 2 ∣ v.size → 2 ∣ v.address.toNat

theorem packed_of_allocate (sound : t.Sound) (small : Memory.base + memorySize < 2 ^ 32)
    (fits : t.allocate memorySize = .ok allocated) : allocated.Packed (sizes t.entries) := by
  have perm := perm_layout sound fits
  have sorted := List.mergeSort_perm t.entries allocatedBefore
  have room : (UInt32.ofNat Memory.base).toNat + sizes (t.entries.mergeSort allocatedBefore) <
      2 ^ 32 := by
    have within := (allocate_eq fits).1
    rw [totalSize_eq] at within
    rw [sizes_perm sorted]
    change 1024 + sizes t.entries < 2 ^ 32
    change 1024 + memorySize < 2 ^ 32 at small
    omega
  have suits : Suits (UInt32.ofNat Memory.base).toNat (t.entries.mergeSort allocatedBefore) :=
    ⟨fun _ _ _ => (by decide : 4 ∣ 1024), fun _ _ _ => (by decide : 2 ∣ 1024)⟩
  have aligned := suits_laid room (pairwise_sorted t.entries) suits
  refine ⟨?_, ?_, fun v member => ?_, fun v member => ?_⟩
  · have symmetric {v w : Variable} (apart : Disjoint (range v) (range w)) :
        Disjoint (range w) (range v) := apart.symm
    refine (perm.pairwise_iff symmetric).mpr ((pairwise_laid room).imp fun {v w} behind => ?_)
    exact Set.Ico_disjoint_Ico.mpr (by omega)
  · ext place
    have covered := exists_mem_laid_iff room place
    simp only [Set.mem_iUnion, range, Set.mem_Ico, exists_prop, perm.mem_iff]
    rw [sizes_perm sorted] at covered
    exact covered
  · exact (aligned v (perm.mem_iff.mp member)).quad v List.mem_cons_self
  · exact (aligned v (perm.mem_iff.mp member)).pair v List.mem_cons_self

end VariableTable

end ReducedX86
