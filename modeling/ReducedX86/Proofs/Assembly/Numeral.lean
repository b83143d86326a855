import Mathlib.Algebra.Ring.Nat
import ReducedX86.Assembly.Numeral
import ReducedX86.Word.Numeric

/-!
Hexadecimal numbers are read as they are written.

A word is written in upper-case digits without leading zeros. Reading takes lower-case digits, but
of a text that has been lower-cased, and leading zeros would not change the number.
-/
namespace ReducedX86

namespace Text

theorem isLower_iff {c : Char} : c.isLower ↔ 0x61 ≤ c.toNat ∧ c.toNat ≤ 0x7A :=
  Bool.and_eq_true_iff.trans (and_congr decide_eq_true_iff decide_eq_true_iff)

theorem isDigit_iff {c : Char} : c.isDigit ↔ 0x30 ≤ c.toNat ∧ c.toNat ≤ 0x39 :=
  Bool.and_eq_true_iff.trans (and_congr decide_eq_true_iff decide_eq_true_iff)

theorem toNat_of_isAlphanum {c : Char} (h : c.isAlphanum) :
    (0x30 ≤ c.toNat ∧ c.toNat ≤ 0x39) ∨ (0x41 ≤ c.toNat ∧ c.toNat ≤ 0x5A) ∨
      (0x61 ≤ c.toNat ∧ c.toNat ≤ 0x7A) := by
  rcases Bool.or_eq_true_iff.mp h with letter | digit
  · rcases Bool.or_eq_true_iff.mp letter with upper | lower
    · exact .inr (.inl (of_decide_eq_true upper))
    · exact .inr (.inr (isLower_iff.mp lower))
  · exact .inl (isDigit_iff.mp digit)

theorem toLower_of_isLower {c : Char} (h : c.isLower) : c.toLower = c := by
  refine dif_neg ?_
  rintro ⟨-, upper⟩
  have letter := (isLower_iff.mp h).1
  have upper : c.toNat ≤ 0x5A := upper
  omega

theorem lowerChars_of_isAlphanum {cs : List Char} (alphanum : ∀ c ∈ cs, c.isAlphanum)
    (afterCased : Bool) : lowerChars afterCased cs = cs.map Char.toLower := by
  induction cs generalizing afterCased with
  | nil => rfl
  | cons c rest ih =>
      obtain ⟨first, others⟩ := List.forall_mem_cons.mp alphanum
      have range := toNat_of_isAlphanum first
      have plain : c.toNat ≠ 0x3A3 := by omega
      have ascii : c.toNat < 0x80 := by omega
      rw [lowerChars, if_neg plain, lowerChar, if_pos ascii, ih others]
      rfl

/-- Letters and digits are lower-cased one by one. -/
theorem toList_lower {s : String} (alphanum : ∀ c ∈ s.toList, c.isAlphanum) :
    (lower s).toList = s.toList.map Char.toLower := by
  rw [lower, String.toList_ofList, lowerChars_of_isAlphanum alphanum]

end Text

namespace Word

theorem isAlphanum_hexDigit : ∀ d < 16, (hexDigit d).isAlphanum := by decide

theorem isAlphanum_of_mem_fixedHex {count n : Nat} : ∀ c ∈ fixedHex count n, c.isAlphanum := by
  induction count generalizing n with
  | zero => simp [fixedHex]
  | succ count ih =>
      intro c member
      rw [fixedHex, List.mem_append, List.mem_singleton] at member
      rcases member with member | rfl
      · exact ih c member
      · exact isAlphanum_hexDigit _ (Nat.mod_lt _ (by decide))

end Word

namespace Numeral

theorem digit?_hexDigit : ∀ d < 16, digit? 16 (Word.hexDigit d).toLower = some d := by decide

theorem accumulate_append (radix value : Nat) (xs ys : List Char) :
    accumulate radix value (xs ++ ys) =
      match accumulate radix value xs with
      | .error e => .error e
      | .ok n => accumulate radix n ys := by
  induction xs generalizing value with
  | nil => rfl
  | cons c rest ih =>
      simp only [List.cons_append, accumulate]
      split
      · rfl
      · split
        · exact ih _
        · rfl

/-- Sixteen digits are as many as always stay within the accumulator. -/
theorem accumulate_fixedHex {count : Nat} (short : count ≤ 16) (n : Nat) :
    accumulate 16 0 ((Word.fixedHex count n).map Char.toLower) = .ok (n % 16 ^ count) := by
  induction count generalizing n with
  | zero => rw [Nat.pow_zero, Nat.mod_one]; rfl
  | succ count ih =>
      have digits : n % 16 ^ (count + 1) = n / 16 % 16 ^ count * 16 + n % 16 := by
        rw [Nat.pow_succ', Nat.mod_mul]
        omega
      have within : n / 16 % 16 ^ count * 16 + n % 16 < UInt64.size := by
        rw [← digits]
        exact Nat.lt_of_lt_of_le (Nat.mod_lt _ (Nat.pow_pos (by decide)))
          (Nat.pow_le_pow_right (by decide) short)
      have last : digit? 16 (Word.hexDigit (n % 16)).toLower = some (n % 16) :=
        digit?_hexDigit _ (Nat.mod_lt n (by decide))
      rw [Word.fixedHex, List.map_append, accumulate_append, ih (by omega), digits]
      simp only [List.map_cons, List.map_nil, accumulate, last, if_pos within]

theorem accumulate_dropWhile_zero (cs : List Char) :
    accumulate 16 0 ((cs.dropWhile (· == '0')).map Char.toLower) =
      accumulate 16 0 (cs.map Char.toLower) := by
  induction cs with
  | nil => rfl
  | cons c rest ih =>
      by_cases zero : c = '0'
      · subst zero
        exact ih
      · rw [List.dropWhile_cons_of_neg (by simpa using zero)]

end Numeral

/-- `shortHex` writes digits, at least one, and they denote the word. -/
theorem Word.shortHex_digits (w : Word) :
    w.shortHex.toList ≠ [] ∧ (∀ c ∈ w.shortHex.toList, c.isAlphanum) ∧
      Numeral.accumulate 16 0 (w.shortHex.toList.map Char.toLower) = .ok w.toNat := by
  have value : Numeral.accumulate 16 0 ((fixedHex 8 w.toNat).map Char.toLower) = .ok w.toNat := by
    have within : w.toNat < 16 ^ 8 := w.toNat_lt
    rw [Numeral.accumulate_fixedHex (by decide), Nat.mod_eq_of_lt within]
  rw [← Numeral.accumulate_dropWhile_zero] at value
  have digits : ∀ c ∈ (fixedHex 8 w.toNat).dropWhile (· == '0'), c.isAlphanum := fun c member =>
    isAlphanum_of_mem_fixedHex c ((List.dropWhile_sublist _).subset member)
  unfold shortHex
  split
  · rename_i no_digits
    rw [no_digits] at value
    have alphanum : ∀ c ∈ ['0'], c.isAlphanum := List.forall_mem_singleton.mpr rfl
    exact ⟨List.cons_ne_nil _ _, alphanum, value⟩
  · rename_i some_digits
    rw [String.toList_ofList]
    exact ⟨some_digits, digits, value⟩

/-- The written form of a word. -/
theorem Word.toList_hex (w : Word) :
    ("0x" ++ w.shortHex).toList = '0' :: 'x' :: w.shortHex.toList := by
  rw [String.toList_append]
  rfl

theorem Word.isAlphanum_of_mem_hex (w : Word) :
    ∀ c ∈ ("0x" ++ w.shortHex).toList, c.isAlphanum := by
  rw [toList_hex, List.forall_mem_cons, List.forall_mem_cons]
  exact ⟨by decide, by decide, w.shortHex_digits.2.1⟩

/-- A written word is read as the word. -/
theorem Numeral.read_shortHex (w : Word) : read ("0x" ++ w.shortHex) = .ok w := by
  obtain ⟨some_digits, -, value⟩ := w.shortHex_digits
  have lowered : (Text.lower ("0x" ++ w.shortHex)).toList =
      '0' :: 'x' :: w.shortHex.toList.map Char.toLower := by
    rw [Text.toList_lower w.isAlphanum_of_mem_hex, w.toList_hex]
    rfl
  have size : magnitude ('0' :: 'x' :: w.shortHex.toList.map Char.toLower) = .ok w.toNat := by
    rw [magnitude, split]
    split
    · rename_i no_digits
      exact absurd (List.map_eq_nil_iff.mp (Prod.mk.inj no_digits).2) some_digits
    · rename_i same
      cases same
      exact value
  rw [read]
  split
  · rename_i signed
    rw [lowered] at signed
    exact absurd (List.cons.inj signed).1 (by decide)
  · rw [lowered, size]
    exact (if_pos w.toNat_lt).trans (congrArg Except.ok UInt32.ofNat_toNat)

end ReducedX86
