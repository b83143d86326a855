import ReducedX86.Variable

/-!
Text spelled in 16-bit units, low bytes first.

`Spells` says what the bytes of a text mean: each character is the number in one unit, or is put
together from a pair of units, the first from D800 to DBFF and the second from DC00 to DFFF. The
bytes that spell a text are unique, and they are those in which a text variable is laid out.
-/
namespace ReducedX86.Text

/-- The bytes spell the characters. -/
inductive Spells : List UInt8 → List Char → Prop
  | nil : Spells [] []
  | unit {data : List UInt8} {text : List Char} {c : Char} {low high : UInt8}
      (value : c.toNat = low.toNat + 256 * high.toNat) (rest : Spells data text) :
      Spells (low :: high :: data) (c :: text)
  | pair {data : List UInt8} {text : List Char} {c : Char} {low high low' high' : UInt8}
      {upper lower : Nat} (first : low.toNat + 256 * high.toNat = 0xD800 + upper)
      (second : low'.toNat + 256 * high'.toNat = 0xDC00 + lower)
      (upper_lt : upper < 0x400) (lower_lt : lower < 0x400)
      (value : c.toNat = 0x10000 + 0x400 * upper + lower) (rest : Spells data text) :
      Spells (low :: high :: low' :: high' :: data) (c :: text)

theorem bytes_eq {low high low' high' : UInt8}
    (same : low.toNat + 256 * high.toNat = low'.toNat + 256 * high'.toNat) :
    low = low' ∧ high = high' := by
  have bound := low.toNat_lt
  have bound' := low'.toNat_lt
  constructor <;> apply UInt8.toNat_inj.mp <;> omega

theorem unit_lt (low high : UInt8) : low.toNat + 256 * high.toNat < 0x10000 := by
  have bound := low.toNat_lt
  have bound' := high.toNat_lt
  omega

/-- There is one way to spell a text. -/
theorem Spells.unique {data data' : List UInt8} {text : List Char} (spells : Spells data text)
    (spells' : Spells data' text) : data = data' := by
  induction spells generalizing data' with
  | nil =>
      cases spells'
      rfl
  | @unit _ _ _ low high value _ ih =>
      have small := unit_lt low high
      cases spells' with
      | unit value' rest' =>
          obtain ⟨rfl, rfl⟩ := bytes_eq (value.symm.trans value')
          rw [ih rest']
      | pair _ _ _ _ value' _ => omega
  | pair first second _ _ value _ ih =>
      cases spells' with
      | @unit _ _ _ low high value' _ =>
          have small := unit_lt low high
          omega
      | pair first' second' _ _ value' rest' =>
          obtain ⟨rfl, rfl⟩ := bytes_eq (first.trans (by omega) |>.trans first'.symm)
          obtain ⟨rfl, rfl⟩ := bytes_eq (second.trans (by omega) |>.trans second'.symm)
          rw [ih rest']

/-- The two bytes of a unit. -/
theorem value_unitBytes (u : UInt16) :
    ∃ low high : UInt8, Variable.unitBytes u = [low, high] ∧
      low.toNat + 256 * high.toNat = u.toNat := by
  refine ⟨_, _, rfl, ?_⟩
  have bound := u.toNat_lt
  rw [UInt8.toNat_ofNat', UInt8.toNat_ofNat']
  omega

theorem spells_units (text : List Char) :
    Spells ((text.flatMap unitsOfChar).flatMap Variable.unitBytes) text := by
  induction text with
  | nil => exact .nil
  | cons c rest ih =>
      have bound : c.toNat < 0x110000 := by
        have valid : c.toNat < 0xD800 ∨ 0xDFFF < c.toNat ∧ c.toNat < 0x110000 := c.valid
        omega
      rw [List.flatMap_cons, unitsOfChar]
      split
      · rename_i small
        obtain ⟨low, high, bytes, value⟩ := value_unitBytes (UInt16.ofNat c.toNat)
        rw [UInt16.toNat_ofNat', Nat.mod_eq_of_lt small] at value
        rw [List.singleton_append, List.flatMap_cons, bytes]
        exact .unit value.symm ih
      · rename_i large
        obtain ⟨low, high, bytes, first⟩ :=
          value_unitBytes (UInt16.ofNat (0xD800 + (c.toNat - 0x10000) / 0x400))
        obtain ⟨low', high', bytes', second⟩ :=
          value_unitBytes (UInt16.ofNat (0xDC00 + (c.toNat - 0x10000) % 0x400))
        rw [UInt16.toNat_ofNat', Nat.mod_eq_of_lt (by omega)] at first second
        simp only [List.cons_append, List.nil_append, List.flatMap_cons, bytes, bytes']
        exact .pair first second (by omega) (by omega) (by omega) ih

end ReducedX86.Text
