import Mathlib.Data.List.Forall2
import Mathlib.Data.Nat.Digits.Defs
import Mathlib.Tactic.Ring
import ReducedX86.Assembly.Numeral
import ReducedX86.Proofs.Word

/-!
The grammar of number literals.

A literal is a body with a minus sign before it or none. A body is hexadecimal or binary by the mark
it starts with or, if it starts with neither, by the mark it ends with, and otherwise decimal. In
each case there is at least one digit. Reading finds exactly the literals that denote a number in
range, however many digits there are. It refuses every other text, and a literal out of range as
such.
-/
namespace ReducedX86.Numeral

/-! Digits -/

/-- The character is the digit of a value in the radix. -/
def IsDigit (radix : Nat) (c : Char) (value : Nat) : Prop :=
  value < radix ∧ "0123456789abcdef".toList[value]? = some c

/-- The characters are digits of the radix, at least one, and denote the number. -/
def Denotes (radix : Nat) (cs : List Char) (n : Nat) : Prop :=
  cs ≠ [] ∧ ∃ values, List.Forall₂ (IsDigit radix) cs values ∧ n = Nat.ofDigits radix values.reverse

theorem toNat_digit : ∀ d < 16, ("0123456789abcdef".toList[d]?).map Char.toNat =
    some (if d < 10 then 48 + d else 87 + d) := by decide

section Digits

variable {radix : Nat} (known : radix ≤ 16)

include known

theorem isDigit_iff {c : Char} {d : Nat} :
    IsDigit radix c d ↔ d < radix ∧ c.toNat = if d < 10 then 48 + d else 87 + d := by
  refine and_congr_right fun small => ?_
  obtain ⟨c', there, code⟩ := Option.map_eq_some_iff.mp (toNat_digit d (by omega))
  rw [there, Option.some.injEq, ← code, Char.toNat_inj, eq_comm]

theorem digit?_eq_some_iff {c : Char} {d : Nat} : digit? radix c = some d ↔ IsDigit radix c d := by
  have zero : '0' ≤ c ↔ 48 ≤ c.toNat := Iff.rfl
  have nine : c ≤ '9' ↔ c.toNat ≤ 57 := Iff.rfl
  have first : 'a' ≤ c ↔ 97 ≤ c.toNat := Iff.rfl
  have last : c ≤ 'z' ↔ c.toNat ≤ 122 := Iff.rfl
  rw [isDigit_iff known, digit?]
  simp only [zero, nine, first, last]
  grind

theorem rightUnique_isDigit : Relator.RightUnique (IsDigit radix) := by
  intro c d e first second
  rw [← digit?_eq_some_iff known] at first second
  exact Option.some.inj (first.symm.trans second)

theorem Denotes.unique {cs : List Char} {m n : Nat} (first : Denotes radix cs m)
    (second : Denotes radix cs n) : m = n := by
  obtain ⟨-, values, digits, rfl⟩ := first
  obtain ⟨-, values', digits', rfl⟩ := second
  rw [(rightUnique_isDigit known).forall₂ digits digits']

/-- Digits continue a number that is within 64 bits, and what they make of it decides alone. -/
theorem accumulate_of_digits {value : Nat} {cs : List Char} {values : List Nat}
    (digits : List.Forall₂ (IsDigit radix) cs values) (small : value < UInt64.size) :
    accumulate radix value cs =
      let n := value * radix ^ values.length + Nat.ofDigits radix values.reverse
      if n < UInt64.size then .ok n else .error .outOfRange := by
  induction digits generalizing value with
  | nil => simp [accumulate, small]
  | @cons c d cs values digit digits ih =>
      have total : value * radix ^ (d :: values).length + Nat.ofDigits radix (d :: values).reverse =
          (value * radix + d) * radix ^ values.length + Nat.ofDigits radix values.reverse := by
        rw [List.reverse_cons, Nat.ofDigits_append, Nat.ofDigits_singleton, List.length_reverse,
          List.length_cons, Nat.pow_succ']
        ring
      simp only [accumulate, (digit?_eq_some_iff known).mpr digit, total]
      split
      · exact ih ‹_›
      · rename_i large
        have positive : 0 < radix := Nat.zero_lt_of_lt digit.1
        have grows := Nat.le_mul_of_pos_right (value * radix + d)
          (Nat.pow_pos positive : 0 < radix ^ values.length)
        rw [if_neg (by omega)]

/-- Only digits are accepted. -/
theorem digits_of_accumulate {value n : Nat} {cs : List Char}
    (read : accumulate radix value cs = .ok n) :
    ∃ values, List.Forall₂ (IsDigit radix) cs values := by
  induction cs generalizing value with
  | nil => exact ⟨[], .nil⟩
  | cons c rest ih =>
      rw [accumulate] at read
      split at read
      · cases read
      · rename_i d digit
        dsimp only at read
        split at read
        · obtain ⟨values, digits⟩ := ih read
          exact ⟨d :: values, .cons ((digit?_eq_some_iff known).mp digit) digits⟩
        · cases read

theorem accumulate_of_denotes {cs : List Char} {n : Nat} (denotes : Denotes radix cs n) :
    accumulate radix 0 cs = if n < UInt64.size then .ok n else .error .outOfRange := by
  obtain ⟨-, values, digits, rfl⟩ := denotes
  rw [accumulate_of_digits known digits (by decide), Nat.zero_mul, Nat.zero_add]

theorem denotes_of_accumulate {cs : List Char} {n : Nat} (nonempty : cs ≠ [])
    (read : accumulate radix 0 cs = .ok n) : Denotes radix cs n := by
  obtain ⟨values, digits⟩ := digits_of_accumulate known read
  have denotes : Denotes radix cs (Nat.ofDigits radix values.reverse) :=
    ⟨nonempty, values, digits, rfl⟩
  rw [accumulate_of_denotes known denotes] at read
  split at read
  · cases read
    exact denotes
  · cases read

end Digits

/-! Bodies -/

/-- The text starts with the mark of a radix. -/
def Marked (cs : List Char) : Prop := ['0', 'x'] <+: cs ∨ ['0', 'b'] <+: cs

/-- The characters are a literal without sign that denotes the number. -/
inductive Body : List Char → Nat → Prop
  | hexadecimal {cs : List Char} {n : Nat} (digits : Denotes 16 cs n) : Body ('0' :: 'x' :: cs) n
  | binary {cs : List Char} {n : Nat} (digits : Denotes 2 cs n) : Body ('0' :: 'b' :: cs) n
  | binarySuffix {cs : List Char} {n : Nat} (unmarked : ¬ Marked (cs ++ ['b']))
      (digits : Denotes 2 cs n) : Body (cs ++ ['b']) n
  | hexadecimalSuffix {cs : List Char} {n : Nat} (unmarked : ¬ Marked (cs ++ ['h']))
      (digits : Denotes 16 cs n) : Body (cs ++ ['h']) n
  | decimal {cs : List Char} {n : Nat} (unmarked : ¬ Marked cs) (digits : Denotes 10 cs n) :
      Body cs n

theorem Denotes.exists_digit {radix n : Nat} {cs : List Char} (denotes : Denotes radix cs n) :
    ∀ c ∈ cs, ∃ d, IsDigit radix c d := by
  obtain ⟨-, values, digits, -⟩ := denotes
  exact ((List.forall₂_and_left _ _).mp (digits.imp fun c d digit => ⟨⟨d, digit⟩, digit⟩)).1

/-- The marks behind the digits are no decimal digits. -/
theorem Denotes.getLast?_ne {n : Nat} {cs : List Char} (denotes : Denotes 10 cs n) {c : Char}
    (mark : c = 'b' ∨ c = 'h') : cs.getLast? ≠ some c := by
  intro last
  obtain ⟨d, digit⟩ := denotes.exists_digit c (List.mem_of_getLast? last)
  rw [isDigit_iff (by decide)] at digit
  have code : 98 ≤ c.toNat := by rcases mark with rfl | rfl <;> decide
  grind

theorem Denotes.not_short {radix n : Nat} {cs : List Char} (denotes : Denotes radix cs n)
    (c : Char) : ¬ (cs ++ [c]).length < 2 := by
  have nonempty := List.length_pos_iff.mpr denotes.1
  rw [List.length_append, List.length_singleton]
  omega

theorem split_of_unmarked {cs : List Char} (unmarked : ¬ Marked cs) :
    split cs =
      if cs.length < 2 then (10, cs)
      else if cs.getLast? = some 'b' then (2, cs.dropLast)
      else if cs.getLast? = some 'h' then (16, cs.dropLast)
      else (10, cs) := by
  rw [split]
  · rintro rest rfl
    exact unmarked (.inl (List.prefix_append _ _))
  · rintro rest rfl
    exact unmarked (.inr (List.prefix_append _ _))

/-- Radix and digits are cut out of a text as the grammar has them. -/
theorem body_iff_split {cs : List Char} {n : Nat} :
    Body cs n ↔ Denotes (split cs).1 (split cs).2 n := by
  constructor
  · intro body
    cases body with
    | hexadecimal digits => exact digits
    | binary digits => exact digits
    | @binarySuffix cs n unmarked digits =>
        rw [split_of_unmarked unmarked, if_neg (digits.not_short 'b'), List.getLast?_concat,
          if_pos rfl, List.dropLast_concat]
        exact digits
    | @hexadecimalSuffix cs n unmarked digits =>
        rw [split_of_unmarked unmarked, if_neg (digits.not_short 'h'), List.getLast?_concat,
          if_neg (by decide), if_pos rfl, List.dropLast_concat]
        exact digits
    | decimal unmarked digits =>
        rw [split_of_unmarked unmarked, if_neg (digits.getLast?_ne (.inl rfl)),
          if_neg (digits.getLast?_ne (.inr rfl)), ite_self]
        exact digits
  · intro digits
    by_cases marked : Marked cs
    · rcases marked with ⟨rest, rfl⟩ | ⟨rest, rfl⟩
      · exact .hexadecimal digits
      · exact .binary digits
    · rw [split_of_unmarked marked] at digits
      split at digits
      · exact .decimal marked digits
      · split at digits
        · rename_i last
          obtain ⟨cs, rfl⟩ := List.getLast?_eq_some_iff.mp last
          rw [List.dropLast_concat] at digits
          exact .binarySuffix marked digits
        · split at digits
          · rename_i last
            obtain ⟨cs, rfl⟩ := List.getLast?_eq_some_iff.mp last
            rw [List.dropLast_concat] at digits
            exact .hexadecimalSuffix marked digits
          · exact .decimal marked digits

theorem radix_split_le (cs : List Char) : (split cs).1 ≤ 16 := by
  unfold split
  split
  · exact Nat.le_refl 16
  · simp
  · split_ifs <;> simp

theorem Body.unique {cs : List Char} {m n : Nat} (first : Body cs m) (second : Body cs n) : m = n :=
  (body_iff_split.mp first).unique (radix_split_le cs) (body_iff_split.mp second)

theorem magnitude_of_digits {cs : List Char} (nonempty : (split cs).2 ≠ []) :
    magnitude cs = accumulate (split cs).1 0 (split cs).2 := by
  rw [magnitude]
  split
  · rename_i no_digits
    rw [no_digits] at nonempty
    exact absurd rfl nonempty
  · rename_i radix digits other same
    rw [same]

theorem magnitude_of_body {cs : List Char} {n : Nat} (body : Body cs n) :
    magnitude cs = if n < UInt64.size then .ok n else .error .outOfRange := by
  have digits := body_iff_split.mp body
  rw [magnitude_of_digits digits.1, accumulate_of_denotes (radix_split_le cs) digits]

theorem body_of_magnitude {cs : List Char} {n : Nat} (read : magnitude cs = .ok n) : Body cs n := by
  by_cases nonempty : (split cs).2 = []
  · rw [magnitude] at read
    split at read
    · cases read
    · rename_i same
      rw [same] at nonempty
      exact absurd nonempty ‹_›
  · rw [magnitude_of_digits nonempty] at read
    exact body_iff_split.mpr (denotes_of_accumulate (radix_split_le cs) nonempty read)

theorem Denotes.ne_minus {radix n : Nat} {cs rest : List Char} (known : radix ≤ 16)
    (denotes : Denotes radix cs n) : cs ≠ '-' :: rest := by
  rintro rfl
  obtain ⟨d, digit⟩ := denotes.exists_digit '-' List.mem_cons_self
  rw [isDigit_iff known] at digit
  have code : '-'.toNat = 45 := rfl
  grind

/-- A body has no sign. -/
theorem Body.ne_minus {cs rest : List Char} {n : Nat} (body : Body cs n) : cs ≠ '-' :: rest := by
  cases body with
  | hexadecimal _ | binary _ => simp
  | decimal _ digits => exact digits.ne_minus (by decide)
  | @binarySuffix cs n _ digits | @hexadecimalSuffix cs n _ digits =>
      obtain ⟨c, tail, rfl⟩ := List.exists_cons_of_ne_nil digits.1
      intro signed
      cases signed
      exact digits.ne_minus (by decide) rfl

/-! Literals -/

/-- The characters are a literal that denotes the integer. -/
inductive Literal : List Char → Int → Prop
  | unsigned {cs : List Char} {n : Nat} (body : Body cs n) : Literal cs n
  | negative {cs : List Char} {n : Nat} (body : Body cs n) : Literal ('-' :: cs) (-n)

/-- The integer can be written in a word. -/
def InRange (n : Int) : Prop := -2 ^ 31 ≤ n ∧ n < 2 ^ 32

instance (n : Int) : Decidable (InRange n) := inferInstanceAs (Decidable (_ ∧ _))

theorem Literal.unique {cs : List Char} {m n : Int} (first : Literal cs m) (second : Literal cs n) :
    m = n := by
  cases first with
  | unsigned body =>
      cases second with
      | unsigned body' => rw [body.unique body']
      | negative body' => exact absurd rfl body.ne_minus
  | negative body =>
      cases second with
      | unsigned body' => exact absurd rfl body'.ne_minus
      | negative body' => rw [body.unique body']

theorem read_of_literal {text : String} {n : Int} (literal : Literal (Text.lower text).toList n) :
    read text = if InRange n then .ok (Word.ofInt n) else .error .outOfRange := by
  rw [read]
  generalize (Text.lower text).toList = cs at literal
  cases literal with
  | @unsigned cs n body =>
      have inside : InRange n ↔ n < UInt32.size := by
        rw [InRange, UInt32.size]
        omega
      split
      · exact absurd rfl body.ne_minus
      · rw [magnitude_of_body body, Word.ofInt_natCast]
        simp only [inside]
        by_cases small : n < UInt64.size
        · rw [if_pos small]
        · have large : ¬ n < UInt32.size := by
            simp only [UInt64.size, UInt32.size] at *
            omega
          rw [if_neg small, if_neg large]
  | @negative cs n body =>
      have inside : InRange (-n) ↔ n ≤ 0x80000000 := by
        rw [InRange]
        omega
      split
      · rename_i same
        cases same
        rw [magnitude_of_body body]
        simp only [inside]
        by_cases small : n < UInt64.size
        · rw [if_pos small]
        · have large : ¬ n ≤ 0x80000000 := by
            simp only [UInt64.size] at *
            omega
          rw [if_neg small, if_neg large]
      · rename_i unsigned
        exact absurd rfl (unsigned cs)

/-- What is read is a literal. -/
theorem literal_of_read {text : String} {v : Word} (found : read text = .ok v) :
    ∃ n, Literal (Text.lower text).toList n := by
  rw [read] at found
  split at found
  · rename_i body same
    split at found
    · cases found
    · rw [same]
      exact ⟨_, .negative (body_of_magnitude ‹_›)⟩
  · split at found
    · cases found
    · exact ⟨_, .unsigned (body_of_magnitude ‹_›)⟩

/-- A text denotes one number at most. Reading accepts the literals in range, each as the word of
its number. It refuses the literals out of range as such, and all other texts. -/
theorem read_accepts_literals (text : String) :
    (∀ m n, Literal (Text.lower text).toList m → Literal (Text.lower text).toList n → m = n) ∧
    (∀ v, read text = .ok v ↔ ∃ n, Literal (Text.lower text).toList n ∧ InRange n ∧
      (v.toNat : Int) = n % 2 ^ 32) ∧
    (∀ n, Literal (Text.lower text).toList n → ¬ InRange n → read text = .error .outOfRange) ∧
    ((¬ ∃ n, Literal (Text.lower text).toList n) → ∃ e, read text = .error e) := by
  have ofInt_iff (v : Word) (n : Int) : Word.ofInt n = v ↔ (v.toNat : Int) = n % 2 ^ 32 := by
    rw [← UInt32.toNat_inj, Word.toNat_ofInt]
    omega
  refine ⟨fun _ _ => Literal.unique, fun v => ⟨fun found => ?_, ?_⟩, fun n literal outside => ?_,
    fun none => ?_⟩
  · obtain ⟨n, literal⟩ := literal_of_read found
    rw [read_of_literal literal] at found
    split at found
    · exact ⟨n, literal, ‹_›, (ofInt_iff v n).mp (Except.ok.inj found)⟩
    · cases found
  · rintro ⟨n, literal, inside, same⟩
    rw [read_of_literal literal, if_pos inside, (ofInt_iff v n).mpr same]
  · rw [read_of_literal literal, if_neg outside]
  · cases found : read text with
    | error e => exact ⟨e, rfl⟩
    | ok v => exact absurd (literal_of_read found) none

/-- A mark in front wins over one behind, which else wins over digits that look like marks. -/
example : read "0b1h" = .error .invalid ∧ read "1bh" = .ok 0x1B ∧ read "00b" = .ok 0 := by decide

end ReducedX86.Numeral
