import Mathlib.Data.List.Sort
import ReducedX86.Proofs.Assembly.Lexing
import ReducedX86.Proofs.Register

/-!
The words of the language and what each is read as.

Keywords, registers and mnemonics are words of lower-case letters, and no word is two of them. So the
name of a register is read as the register, and the name of an operator as the operator, although
keywords are looked for first and then registers. Numbers are read as they are written.
-/
namespace ReducedX86.Assembly

/-- The words that say the width of a memory operand. -/
def keywords : List String := ["byte", "word", "dword", "ptr"]

/-- The names of registers and all spellings of operators. -/
def machineNames : List String := Register.all.map Register.name ++ Operator.lexicon.map Prod.fst

/-- Every word that is no name and no number. -/
def vocabulary : List String := keywords ++ machineNames

/-- A word as a number. -/
def wordCode (word : String) : Nat := word.toList.foldl (fun n c => 128 * n + c.toNat) 0

-- Sorting the codes is much less work than comparing each word with each.
theorem vocabulary_sorted :
    ((vocabulary.map wordCode).insertionSort (· ≤ ·)).IsChain (· < ·) ∧
      vocabulary.all fun word => !word.toList.isEmpty && word.toList.all Char.isLower := by
  decide +kernel

/-- No word has two meanings. -/
theorem vocabulary_nodup : vocabulary.Nodup := by
  apply List.Nodup.of_map wordCode
  rw [← (List.perm_insertionSort (· ≤ ·) _).nodup_iff]
  exact (List.isChain_iff_pairwise.mp vocabulary_sorted.1).imp Nat.ne_of_lt

/-- What starts with no digit and no sign is not read as a number. -/
theorem ofWord_of_letter {word : String} (nonempty : word.toList ≠ [])
    (letter : ∀ c ∈ word.toList.head?, ¬ c ≤ '9') :
    Token.ofWord word.toList = .ok (Token.ofName word) := by
  cases letters : word.toList with
  | nil => exact absurd letters nonempty
  | cons c rest =>
      rw [letters] at letter
      simp only [Token.ofWord, if_neg (letter c rfl), ← letters, String.ofList_toList]

section Words

variable {word : String} (member : word ∈ vocabulary)
include member

theorem isLower_of_mem_vocabulary : word.toList ≠ [] ∧ ∀ c ∈ word.toList, c.isLower := by
  have letters := List.all_eq_true.mp vocabulary_sorted.2 word member
  rw [Bool.and_eq_true, Bool.not_eq_true', List.isEmpty_eq_false_iff] at letters
  exact ⟨letters.1, List.all_eq_true.mp letters.2⟩

theorem isAlphanum_of_mem_vocabulary : ∀ c ∈ word.toList, c.isAlphanum := by
  intro c letter
  have lower : c.isLower := (isLower_of_mem_vocabulary member).2 c letter
  exact Bool.or_eq_true_iff.mpr (.inl (Bool.or_eq_true_iff.mpr (.inr lower)))

theorem map_toLower_of_mem_vocabulary : word.map Char.toLower = word := by
  have letters : ∀ c ∈ word.toList, c.toLower = id c := fun c letter =>
    Text.toLower_of_isLower ((isLower_of_mem_vocabulary member).2 c letter)
  rw [← String.toList_inj, String.toList_map, List.map_congr_left letters, List.map_id]

theorem lower_of_mem_vocabulary : Text.lower word = word := by
  rw [← String.toList_inj, Text.toList_lower (isAlphanum_of_mem_vocabulary member),
    ← String.toList_map, map_toLower_of_mem_vocabulary member]

theorem ofWord_of_mem_vocabulary : Token.ofWord word.toList = .ok (Token.ofName word) := by
  obtain ⟨nonempty, lower⟩ := isLower_of_mem_vocabulary member
  refine ofWord_of_letter nonempty fun c first digit => ?_
  have digit : c.toNat ≤ 0x39 := digit
  have lower := (Text.isLower_iff.mp (lower c (List.mem_of_head? first))).1
  omega

theorem Lexes.ofVocabulary : Lexes word.toList [Token.ofName word] :=
  .word (isAlphanum_of_mem_vocabulary member) (isLower_of_mem_vocabulary member).1
    (ofWord_of_mem_vocabulary member)

end Words

/-- The vocabulary is the keywords, the registers and the operators in all their spellings. -/
theorem mem_vocabulary_iff {word : String} :
    word ∈ vocabulary ↔
      word ∈ keywords ∨ (∃ r : Register, r.name = word) ∨ ∃ op : Operator, word ∈ op.spellings := by
  have spelled : word ∈ Operator.lexicon.map Prod.fst ↔ ∃ op : Operator, word ∈ op.spellings := by
    simp [Operator.lexicon, Operator.mem_all]
  rw [vocabulary, machineNames, List.mem_append, List.mem_append, spelled, List.mem_map]
  simp only [Register.mem_all, true_and]

/-! Looking words up -/

theorem registerOfName?_eq_none_iff {name : String} :
    Register.ofName? name = none ↔ name.map Char.toLower ∉ Register.all.map Register.name := by
  simp [Register.ofName?]

theorem operatorOfName?_eq_none_iff {name : String} :
    Operator.ofName? name = none ↔ name.map Char.toLower ∉ Operator.lexicon.map Prod.fst := by
  rw [Operator.ofName?, List.lookup_eq_none_iff, List.mem_map]
  constructor
  · rintro other ⟨entry, listed, same⟩
    exact bne_iff_ne.mp (other entry listed) same.symm
  · intro absent entry listed
    exact bne_iff_ne.mpr fun same => absent ⟨entry, listed, same.symm⟩

theorem ofName_of_mem_machineNames {word : String} (member : word ∈ machineNames) :
    Token.ofName word =
      match Register.ofName? word with
      | some r => .register r
      | none =>
          match Operator.ofName? word with
          | some op => .operator op
          | none => .identifier word := by
  have other : ∀ keyword ∈ keywords, keyword ≠ word := fun keyword isKeyword =>
    (List.nodup_append.mp vocabulary_nodup).2.2 keyword isKeyword word member
  rw [Token.ofName, lower_of_mem_vocabulary (List.mem_append_right _ member)]
  split
  case h_5 => rfl
  all_goals exact (other _ (by decide) rfl).elim

/-! Registers -/

theorem mem_registerNames (r : Register) : r.name ∈ Register.all.map Register.name :=
  List.mem_map_of_mem (Register.mem_all r)

theorem lexes_register (r : Register) : Lexes r.name.toList [.register r] := by
  have member : r.name ∈ machineNames := List.mem_append_left _ (mem_registerNames r)
  have name : Token.ofName r.name = .register r := by
    rw [ofName_of_mem_machineNames member, Register.ofName?_name]
  exact name ▸ .ofVocabulary (List.mem_append_right _ member)

/-! Operators -/

theorem mem_lexicon (op : Operator) : (op.name, op) ∈ Operator.lexicon := by
  have spelled : ∀ op ∈ Operator.all, op.spellings ≠ [] := by decide +kernel
  have member : op.name ∈ op.spellings := by
    cases spellings : op.spellings with
    | nil => exact absurd spellings (spelled op (Operator.mem_all op))
    | cons first others => simp [Operator.name, spellings]
  exact List.mem_flatMap.mpr ⟨op, Operator.mem_all op, List.mem_map_of_mem member⟩

theorem operatorName_mem (op : Operator) : op.name ∈ machineNames :=
  List.mem_append_right _ (List.mem_map_of_mem (mem_lexicon op))

theorem map_toLower_operatorName (op : Operator) : op.name.map Char.toLower = op.name :=
  map_toLower_of_mem_vocabulary (List.mem_append_right _ (operatorName_mem op))

theorem registerOfName?_operatorName (op : Operator) : Register.ofName? op.name = none := by
  have distinct := List.nodup_append.mp (List.nodup_append.mp vocabulary_nodup).2.1
  rw [registerOfName?_eq_none_iff, map_toLower_operatorName]
  intro register
  exact distinct.2.2 op.name register op.name (List.mem_map_of_mem (mem_lexicon op)) rfl

theorem ofName?_operatorName (op : Operator) : Operator.ofName? op.name = some op := by
  have distinct := (List.nodup_append.mp (List.nodup_append.mp vocabulary_nodup).2.1).2.1
  obtain ⟨before, after, split⟩ := List.append_of_mem (mem_lexicon op)
  rw [split, List.map_append, List.nodup_append] at distinct
  rw [Operator.ofName?, map_toLower_operatorName, List.lookup_eq_some_iff]
  refine ⟨before, after, split, fun p earlier => ?_⟩
  have apart := distinct.2.2 p.1 (List.mem_map_of_mem earlier) op.name (by simp)
  simpa using fun same => apart same.symm

theorem lexes_operator (op : Operator) : Lexes op.name.toList [.operator op] := by
  have name : Token.ofName op.name = .operator op := by
    rw [ofName_of_mem_machineNames (operatorName_mem op), registerOfName?_operatorName,
      ofName?_operatorName]
  exact name ▸ .ofVocabulary (List.mem_append_right _ (operatorName_mem op))

/-! Numbers -/

theorem lexes_hex (w : Word) : Lexes ("0x" ++ w.shortHex).toList [.number w] := by
  refine .word w.isAlphanum_of_mem_hex (by rw [w.toList_hex]; exact List.cons_ne_nil _ _) ?_
  rw [w.toList_hex, Token.ofWord, ← w.toList_hex, String.ofList_toList, Numeral.read_shortHex]
  rfl

theorem lexes_factor {s : Scale} (scaled : s ≠ .one) :
    Lexes (toString s.factor.toNat).toList [.number s.factor] := by
  cases s with
  | one => exact absurd rfl scaled
  | two | four | eight => exact .word (List.all_eq_true.mp (by decide)) (by decide) (by decide)

end ReducedX86.Assembly
