/-!
Sets of characters as lists of closed ranges of code points.

The lists are in ascending order, so that a search can end early. For such a list, the search finds
exactly the characters that one of the ranges holds (`inRanges_iff`).
-/
namespace ReducedX86.Text

/-- Whether one of some ascending ranges holds a character. -/
def inRanges : List (Nat × Nat) → Char → Bool
  | [], _ => false
  | (first, last) :: rest, c => first ≤ c.toNat && (c.toNat ≤ last || inRanges rest c)

theorem inRanges_iff {ranges : List (Nat × Nat)} (ascending : ranges.Pairwise (·.1 ≤ ·.1))
    (c : Char) : inRanges ranges c ↔ ∃ r ∈ ranges, r.1 ≤ c.toNat ∧ c.toNat ≤ r.2 := by
  induction ranges with
  | nil => simp [inRanges]
  | cons r rest ih =>
      have ⟨below, ascending⟩ := List.pairwise_cons.mp ascending
      simp only [inRanges, Bool.and_eq_true, Bool.or_eq_true, decide_eq_true_eq, ih ascending]
      constructor
      · rintro ⟨starts, ends | ⟨s, member, found⟩⟩
        · exact ⟨_, List.mem_cons_self, starts, ends⟩
        · exact ⟨s, List.mem_cons_of_mem _ member, found⟩
      · rintro ⟨s, member, starts, ends⟩
        rcases List.mem_cons.mp member with rfl | later
        · exact ⟨starts, .inl ends⟩
        · exact ⟨Nat.le_trans (below s later) starts, .inr ⟨s, later, starts, ends⟩⟩

end ReducedX86.Text
