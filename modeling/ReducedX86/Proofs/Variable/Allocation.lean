import ReducedX86.Variable.Table

/-!
Allocating the variables of a table.

Allocation changes addresses only, and the order in which the variables are placed does not look at
addresses. So the variables of an allocated table stand where the table places them, and to allocate
it again changes nothing.
-/
namespace ReducedX86.VariableTable

/-- The variable at another address. -/
def moved (address : Variable → Word) (v : Variable) : Variable := { v with address := address v }

/-- The table with other addresses. -/
def readdressed (t : VariableTable) (address : Variable → Word) : VariableTable :=
  ⟨t.entries.map (moved address)⟩

theorem readdressed_self {t : VariableTable} {address : Variable → Word}
    (same : ∀ v ∈ t.entries, address v = v.address) : t.readdressed address = t := by
  refine congrArg VariableTable.mk ((List.map_congr_left fun v member => ?_).trans (List.map_id _))
  rw [moved, same v member]
  rfl

theorem totalSize_readdressed (t : VariableTable) (address : Variable → Word) :
    (t.readdressed address).totalSize = t.totalSize := List.foldl_map

theorem place_readdressed (start : Word) (vs : List Variable) (address : Variable → Word) :
    place start (vs.map (moved address)) = place start vs := by
  induction vs generalizing start with
  | nil => rfl
  | cons v rest ih => exact congrArg ((key v.name, start) :: ·) (ih _)

theorem addresses_readdressed (t : VariableTable) (address : Variable → Word) :
    (t.readdressed address).addresses = t.addresses := by
  have sorted : (t.entries.map (moved address)).mergeSort allocatedBefore =
      (t.entries.mergeSort allocatedBefore).map (moved address) :=
    (List.map_mergeSort (f := moved address) fun _ _ _ _ => rfl).symm
  rw [addresses, addresses, readdressed, sorted, place_readdressed]

/-- Variables in the order of their addresses. -/
theorem pairwise_byAddress (vs : List Variable) :
    (vs.mergeSort fun a b => a.address ≤ b.address).Pairwise (·.address ≤ ·.address) := by
  have ordered : (vs.mergeSort fun a b => a.address ≤ b.address).Pairwise
      fun a b => decide (a.address ≤ b.address) := List.pairwise_mergeSort
    (fun a b c first second => by
      simp only [decide_eq_true_eq] at first second ⊢
      exact UInt32.le_trans first second)
    (fun a b => by
      simp only [Bool.or_eq_true, decide_eq_true_eq]
      exact UInt32.le_total a.address b.address)
    vs
  exact ordered.imp fun le => of_decide_eq_true le

/-- Every variable has a place. -/
theorem exists_lookup_place {vs : List Variable} {v : Variable} (member : v ∈ vs) (start : Word) :
    ∃ address, (place start vs).lookup (key v.name) = some address := by
  induction vs generalizing start with
  | nil => exact absurd member List.not_mem_nil
  | cons w rest ih =>
      rw [place, List.lookup_cons]
      cases same : key v.name == key w.name with
      | true => exact ⟨start, rfl⟩
      | false =>
          have later : v ∈ rest := (List.mem_cons.mp member).resolve_left fun first => by
            rw [first, beq_self_eq_true] at same
            exact Bool.noConfusion same
          exact ih later _

theorem exists_lookup_addresses {t : VariableTable} {v : Variable} (member : v ∈ t.entries) :
    ∃ address, t.addresses.lookup (key v.name) = some address :=
  exists_lookup_place (List.mem_mergeSort.mpr member) _

variable {t allocated : VariableTable} {memorySize : Nat}

theorem allocate_eq (fits : t.allocate memorySize = .ok allocated) :
    t.totalSize ≤ memorySize ∧
      allocated = t.readdressed fun v => (t.addresses.lookup (key v.name)).getD v.address := by
  rw [allocate] at fits
  split at fits
  · cases fits
  · rename_i room
    cases fits
    exact ⟨Nat.le_of_not_lt room, rfl⟩

theorem addresses_of_allocate (fits : t.allocate memorySize = .ok allocated) :
    allocated.addresses = t.addresses := by
  rw [(allocate_eq fits).2, addresses_readdressed]

/-- In an allocated table every variable is where the table places it. -/
theorem lookup_address_of_allocate (fits : t.allocate memorySize = .ok allocated) {v : Variable}
    (member : v ∈ allocated.entries) :
    allocated.addresses.lookup (key v.name) = some v.address := by
  rw [addresses_of_allocate fits]
  rw [(allocate_eq fits).2] at member
  obtain ⟨w, declared, rfl⟩ := List.mem_map.mp member
  obtain ⟨address, placed⟩ := exists_lookup_addresses declared
  simp only [moved, placed, Option.getD_some]

/-- An allocated table need not be allocated again. -/
theorem allocate_of_allocate (fits : t.allocate memorySize = .ok allocated) :
    allocated.allocate memorySize = .ok allocated := by
  have room : allocated.totalSize ≤ memorySize := by
    obtain ⟨room, rfl⟩ := allocate_eq fits
    rwa [totalSize_readdressed]
  have kept : allocated.readdressed (fun v =>
      (allocated.addresses.lookup (key v.name)).getD v.address) = allocated :=
    readdressed_self fun v member => by
      rw [lookup_address_of_allocate fits member, Option.getD_some]
  rw [allocate, if_neg (Nat.not_lt_of_le room)]
  exact congrArg Except.ok kept

end ReducedX86.VariableTable
