import Mathlib.Data.List.Induction
import Mathlib.Data.List.Nodup
import ReducedX86.Entries

/-!
Maps that are filled pair by pair.

One way of filling keeps the first value that a key was given, the other one the last. Either way
the map has the keys of the pairs, each of them once.
-/
namespace ReducedX86.Entries

variable {κ α : Type} [DecidableEq κ] {pairs entries : List (κ × α)} {k : κ} {v : α}

theorem lookup_eq_none_iff_not_mem : entries.lookup k = none ↔ k ∉ entries.map Prod.fst := by
  rw [← isSome_lookup_iff_mem, Option.not_isSome_iff_eq_none]

theorem lookup_eq_some_iff_mem (distinct : (entries.map Prod.fst).Nodup) :
    entries.lookup k = some v ↔ (k, v) ∈ entries := by
  induction entries with
  | nil => simp
  | cons e rest ih =>
      obtain ⟨a, b⟩ := e
      obtain ⟨fresh, distinct⟩ := List.nodup_cons.mp distinct
      rw [List.mem_cons, Prod.mk.injEq, List.lookup_cons, ← ih distinct]
      by_cases same : k = a
      · subst same
        have absent : rest.lookup k = none := lookup_eq_none_iff_not_mem.mpr fresh
        simp [absent, eq_comm]
      · simp [beq_eq_false_iff_ne.mpr same, same]

theorem lookup_putNew (entries : List (κ × α)) (k k' : κ) (v : α) :
    (putNew entries k v).lookup k' =
      (entries.lookup k').or (if k' = k then some v else none) := by
  induction entries with
  | nil =>
      by_cases same : k' = k
      · simp [putNew, same]
      · simp [putNew, List.lookup_cons, beq_eq_false_iff_ne.mpr same, same]
  | cons e rest ih =>
      obtain ⟨a, b⟩ := e
      rw [putNew]
      by_cases taken : a = k
      · subst taken
        by_cases same : k' = a
        · simp [same]
        · simp [List.lookup_cons, beq_eq_false_iff_ne.mpr same, same]
      · rw [if_neg taken]
        by_cases same : k' = a
        · simp [same]
        · simp only [List.lookup_cons, beq_eq_false_iff_ne.mpr same, ih]

theorem map_fst_put (entries : List (κ × α)) (k : κ) (v : α) :
    (put entries k v).map Prod.fst =
      if k ∈ entries.map Prod.fst then entries.map Prod.fst else entries.map Prod.fst ++ [k] := by
  induction entries with
  | nil => rfl
  | cons e rest ih => grind [put]

theorem map_fst_putNew (entries : List (κ × α)) (k : κ) (v : α) :
    (putNew entries k v).map Prod.fst = (put entries k v).map Prod.fst := by
  induction entries with
  | nil => rfl
  | cons e rest ih => grind [put, putNew]

/-- The map has the keys of the pairs. -/
structure Covers (pairs entries : List (κ × α)) : Prop where
  distinct : (entries.map Prod.fst).Nodup
  keys : ∀ k, k ∈ entries.map Prod.fst ↔ k ∈ pairs.map Prod.fst

theorem Covers.step (covers : Covers pairs entries) {entries' : List (κ × α)}
    (filled : entries'.map Prod.fst = (put entries k v).map Prod.fst) :
    Covers (pairs ++ [(k, v)]) entries' := by
  rw [map_fst_put] at filled
  constructor
  · rw [filled]
    split
    · exact covers.distinct
    · rename_i fresh
      rw [List.nodup_append_comm]
      exact List.nodup_cons.mpr ⟨fresh, covers.distinct⟩
  · intro k'
    have earlier := covers.keys k'
    rw [filled]
    grind

/-- The map has for every key the last value that the pairs give it. -/
structure KeepsLast (pairs entries : List (κ × α)) : Prop extends Covers pairs entries where
  lookup : ∀ n k v, pairs[n]? = some (k, v) →
    (∀ (m : Nat) (e : κ × α), n < m → pairs[m]? = some e → e.1 ≠ k) → entries.lookup k = some v

/-- The map has for every key the first value that the pairs give it. -/
structure KeepsFirst (pairs entries : List (κ × α)) : Prop extends Covers pairs entries where
  lookup : ∀ n k v, pairs[n]? = some (k, v) →
    (∀ (m : Nat) (e : κ × α), m < n → pairs[m]? = some e → e.1 ≠ k) → entries.lookup k = some v

theorem KeepsLast.put (keeps : KeepsLast pairs entries) (k : κ) (v : α) :
    KeepsLast (pairs ++ [(k, v)]) (put entries k v) := by
  refine ⟨keeps.step rfl, fun n k' v' found last => ?_⟩
  rw [lookup_put]
  rcases Nat.lt_or_ge n pairs.length with earlier | new
  · have apart : k ≠ k' := last pairs.length (k, v) earlier (by simp)
    rw [List.getElem?_append_left earlier] at found
    rw [if_neg apart.symm]
    refine keeps.lookup n k' v' found fun m e later placed => last m e later ?_
    rw [List.getElem?_append_left (List.getElem?_eq_some_iff.mp placed).1, placed]
  · rw [List.getElem?_append_right new] at found
    obtain ⟨-, rfl, rfl⟩ : n - pairs.length = 0 ∧ k = k' ∧ v = v' := by
      simpa [List.getElem?_singleton] using found
    rw [if_pos rfl]

theorem KeepsFirst.putNew (keeps : KeepsFirst pairs entries) (k : κ) (v : α) :
    KeepsFirst (pairs ++ [(k, v)]) (putNew entries k v) := by
  refine ⟨keeps.step (map_fst_putNew entries k v), fun n k' v' found first => ?_⟩
  rw [lookup_putNew]
  have earlier (m : Nat) (e : κ × α) (before : m < n) (placed : pairs[m]? = some e) : e.1 ≠ k' := by
    refine first m e before ?_
    rw [List.getElem?_append_left (List.getElem?_eq_some_iff.mp placed).1, placed]
  rcases Nat.lt_or_ge n pairs.length with inside | new
  · rw [List.getElem?_append_left inside] at found
    rw [keeps.lookup n k' v' found earlier, Option.some_or]
  · rw [List.getElem?_append_right new] at found
    obtain ⟨same, rfl, rfl⟩ : n - pairs.length = 0 ∧ k = k' ∧ v = v' := by
      simpa [List.getElem?_singleton] using found
    have fresh : k ∉ entries.map Prod.fst := by
      rw [keeps.keys, List.mem_map]
      rintro ⟨e, member, rfl⟩
      obtain ⟨m, placed⟩ := List.mem_iff_getElem?.mp member
      have within := (List.getElem?_eq_some_iff.mp placed).1
      exact earlier m e (by omega) placed rfl
    rw [lookup_eq_none_iff_not_mem.mpr fresh, if_pos rfl, Option.none_or]

theorem keepsLast_foldl (pairs : List (κ × α)) :
    KeepsLast pairs (pairs.foldl (fun m e => put m e.1 e.2) []) := by
  induction pairs using List.reverseRecOn with
  | nil => exact ⟨⟨List.nodup_nil, by simp⟩, by simp⟩
  | append_singleton pairs e ih =>
      rw [List.foldl_append]
      exact ih.put e.1 e.2

theorem keepsFirst_foldl (pairs : List (κ × α)) :
    KeepsFirst pairs (pairs.foldl (fun m e => putNew m e.1 e.2) []) := by
  induction pairs using List.reverseRecOn with
  | nil => exact ⟨⟨List.nodup_nil, by simp⟩, by simp⟩
  | append_singleton pairs e ih =>
      rw [List.foldl_append]
      exact ih.putNew e.1 e.2

/-- The first value of a key stands no later than any other one. -/
theorem KeepsFirst.exists_lookup (keeps : KeepsFirst pairs entries) {n : Nat}
    (given : pairs[n]? = some (k, v)) :
    ∃ m v', m ≤ n ∧ pairs[m]? = some (k, v') ∧ entries.lookup k = some v' := by
  induction n using Nat.strongRecOn generalizing v with
  | ind n ih =>
      by_cases first : ∀ (m : Nat) (e : κ × α), m < n → pairs[m]? = some e → e.1 ≠ k
      · exact ⟨n, v, Nat.le_refl n, given, keeps.lookup n k v given first⟩
      · push Not at first
        obtain ⟨m, ⟨_, v'⟩, before, placed, rfl⟩ := first
        obtain ⟨l, v', within, found⟩ := ih m before placed
        exact ⟨l, v', by omega, found⟩

end ReducedX86.Entries
