/-!
Lists of pairs that show the order in which their keys came in.
-/
namespace ReducedX86.Entries

variable {κ α : Type} [DecidableEq κ]

/-- Gives a key a value; a key that is already there keeps its place. -/
def put (entries : List (κ × α)) (k : κ) (v : α) : List (κ × α) :=
  match entries with
  | [] => [(k, v)]
  | (k', v') :: rest => if k' = k then (k, v) :: rest else (k', v') :: put rest k v

/-- Gives a key a value unless it has one. -/
def putNew (entries : List (κ × α)) (k : κ) (v : α) : List (κ × α) :=
  match entries with
  | [] => [(k, v)]
  | (k', v') :: rest => if k' = k then (k', v') :: rest else (k', v') :: putNew rest k v

theorem isSome_lookup_iff_mem {entries : List (κ × α)} {k : κ} :
    (entries.lookup k).isSome ↔ k ∈ entries.map Prod.fst := by
  rw [List.lookup_isSome_iff, List.mem_map]
  exact exists_congr fun entry => and_congr_right fun _ => beq_iff_eq.trans eq_comm

theorem lookup_put (entries : List (κ × α)) (k k' : κ) (v : α) :
    (put entries k v).lookup k' = if k' = k then some v else entries.lookup k' := by
  induction entries with
  | nil =>
      by_cases h : k' = k
      · simp [put, h]
      · simp [put, List.lookup_cons, beq_eq_false_iff_ne.mpr h, h]
  | cons e rest ih =>
      obtain ⟨a, b⟩ := e
      unfold put
      by_cases ha : a = k
      · subst ha
        by_cases h : k' = a
        · simp [h]
        · simp [List.lookup_cons, beq_eq_false_iff_ne.mpr h, h]
      · by_cases h : k' = a
        · subst h; simp [ha]
        · simp only [ha, if_false, List.lookup_cons, beq_eq_false_iff_ne.mpr h, ih]

end ReducedX86.Entries
