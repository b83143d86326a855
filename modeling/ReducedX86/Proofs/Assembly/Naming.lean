import ReducedX86.Proofs.Assembly.Advance
import ReducedX86.Proofs.Assembly.LetterCase
import ReducedX86.Proofs.Assembly.Vocabulary

/-!
What is a name.

The reader of programs and the table of variables decide it each for itself. Both lower-case a text
and look it up, and what either of them finds is the vocabulary. Apart from that the reader takes
words and the table looks for a letter in front, which is the same for words that do not start with
a digit. So a program cannot contain a name that no variable may have.
-/
namespace ReducedX86

namespace Assembly

/-- A word that does not start with a digit. -/
structure PlainWord (text : String) : Prop where
  nonempty : text.toList ≠ []
  words : ∀ c ∈ text.toList, Token.isWordChar c
  starts : ∀ c ∈ text.toList.head?, ¬ c.isDigit

/-- Registers and operators are looked up in either case, which makes no difference to a text that has
been lower-cased. -/
theorem lower_notMem_vocabulary_iff {text : String} :
    Text.lower text ∉ vocabulary ↔ Text.lower text ∉ keywords ∧
      Register.ofName? (Text.lower text) = none ∧ Operator.ofName? (Text.lower text) = none := by
  rw [registerOfName?_eq_none_iff, operatorOfName?_eq_none_iff, Text.map_toLower_lower, vocabulary,
    machineNames, List.mem_append, List.mem_append, not_or, not_or]

/-! The reader -/

/-- What is not in the vocabulary is read as a name, as it is written. -/
theorem ofName_eq_identifier_iff {text name : String} :
    Token.ofName text = .identifier name ↔ name = text ∧ Text.lower text ∉ vocabulary := by
  rw [lower_notMem_vocabulary_iff, Token.ofName]
  generalize Text.lower text = lowered
  split
  case h_5 noByte noWord noDword noPtr =>
    have other : lowered ∉ keywords := by
      simp only [keywords, List.mem_cons, List.not_mem_nil, or_false, not_or]
      exact ⟨noByte, noWord, noDword, noPtr⟩
    cases Register.ofName? lowered with
    | some r => simp
    | none =>
        cases Operator.ofName? lowered with
        | some op => simp
        | none => simp [other, eq_comm]
  all_goals
    refine iff_of_false (by rintro ⟨⟩) ?_
    rintro ⟨-, other, -⟩
    exact other (by decide)

/-- The word characters other than digits start with the capital letters. -/
theorem le_of_isWordChar {c : Char} (word : Token.isWordChar c) (noDigit : ¬ c.isDigit) :
    'A' ≤ c := by
  change 0x41 ≤ c.toNat
  rw [Token.isWordChar, Bool.or_eq_true, Bool.or_eq_true, beq_iff_eq] at word
  rcases word with (rfl | alphanum) | high
  · decide
  · have range := Text.toNat_of_isAlphanum alphanum
    rw [Text.isDigit_iff] at noDigit
    omega
  · rw [Bool.and_eq_true, Bool.and_eq_true, decide_eq_true_eq] at high
    omega

namespace PlainWord

variable {text : String} (word : PlainWord text)
include word

theorem le_first : ∀ c ∈ text.toList.head?, 'A' ≤ c := fun c first =>
  le_of_isWordChar (word.words c (List.mem_of_head? first)) (word.starts c first)

theorem ofWord_eq : Token.ofWord text.toList = .ok (Token.ofName text) :=
  ofWord_of_letter word.nonempty fun c first digit =>
    absurd (Char.le_trans (word.le_first c first) digit) (by decide)

/-- The word is the only token of the text. -/
theorem ofSource_eq : TokenStream.ofSource text = .token ⟨Token.ofName text, {}⟩ .done := by
  have read := next_of_word word.words word.nonempty word.ofWord_eq .nil {}
  rw [List.append_nil] at read
  rw [TokenStream.ofSource, Cursor.ofSource, TokenStream.ofCursor_of_next read]
  exact congrArg _ (TokenStream.ofCursor_of_end rfl)

end PlainWord

theorem ofWord_eq_identifier {c : Char} {rest : List Char} {name : String}
    (reads : Token.ofWord (c :: rest) = .ok (.identifier name)) :
    ¬ c ≤ '9' ∧ name = String.ofList (c :: rest) ∧ Text.lower name ∉ vocabulary := by
  simp only [Token.ofWord] at reads
  split at reads
  · split at reads <;> cases reads
  · rename_i noNumber
    obtain ⟨rfl, free⟩ := ofName_eq_identifier_iff.mp (Except.ok.inj reads)
    exact ⟨noNumber, rfl, free⟩

/-- A name in a text is a plain word that is not in the vocabulary. -/
theorem plainWord_of_stands {before after text : List Char} {name : String}
    (stands : (Token.identifier name).Stands before after text) :
    PlainWord name ∧ Text.lower name ∉ vocabulary := by
  cases stands with
  | mark mark =>
      unfold Token.punctuation? at mark
      split at mark <;> cases mark
  | word signed nonempty words starts stops reads =>
      rcases signed with rfl | rfl
      · obtain ⟨c, rest, rfl⟩ := List.exists_cons_of_ne_nil nonempty
        obtain ⟨noNumber, rfl, free⟩ := ofWord_eq_identifier reads
        have noDigit : ∀ d ∈ (c :: rest).head?, ¬ d.isDigit := by
          rintro d ⟨⟩ digit
          exact noNumber (Text.isDigit_iff.mp digit).2
        rw [← String.toList_ofList (l := c :: rest)] at nonempty words noDigit
        exact ⟨⟨nonempty, words, noDigit⟩, free⟩
      · exact absurd (by decide) (ofWord_eq_identifier reads).1

/-! The table -/

/-- A valid name has a letter or a later character in front and holds no blank of ASCII. Of the words
that it must not be, `in` is an operator, so they are the vocabulary. -/
theorem isValidName_iff {name : String} :
    Declaration.isValidName name ↔ (∃ c ∈ name.toList.head?, 'A' ≤ c) ∧
      (∀ c ∈ name.toList, c ≠ ' ' ∧ c ≠ '\t') ∧ Text.lower name ∉ vocabulary := by
  have listed : Declaration.reservedNames = keywords ++ ["in"] := rfl
  have input (free : Operator.ofName? (Text.lower name) = none) : Text.lower name ≠ "in" := by
    have operator : Operator.ofName? "in" ≠ none := by decide +kernel
    intro same
    exact operator (same ▸ free)
  rw [lower_notMem_vocabulary_iff, Declaration.isValidName]
  cases letters : name.toList with
  | nil => simp
  | cons first rest =>
      simp only [listed, Bool.and_eq_true, decide_eq_true_eq, Bool.not_eq_true', List.any_eq_false,
        Bool.or_eq_true, beq_iff_eq, not_or, List.contains_eq_mem, decide_eq_false_iff_not,
        List.mem_append, List.mem_singleton, Option.isNone_iff_eq_none, List.head?_cons,
        Option.mem_def, Option.some.injEq, exists_eq_left']
      constructor
      · rintro ⟨⟨⟨⟨letter, solid⟩, keyword, -⟩, operator⟩, register⟩
        exact ⟨letter, solid, keyword, register, operator⟩
      · rintro ⟨letter, solid, keyword, register, operator⟩
        exact ⟨⟨⟨⟨letter, solid⟩, keyword, input operator⟩, operator⟩, register⟩

theorem PlainWord.isValidName_iff {text : String} (word : PlainWord text) :
    Declaration.isValidName text ↔ Text.lower text ∉ vocabulary := by
  have letter : ∃ c ∈ text.toList.head?, 'A' ≤ c := by
    obtain ⟨c, rest, letters⟩ := List.exists_cons_of_ne_nil word.nonempty
    have first : c ∈ text.toList.head? := by rw [letters]; rfl
    exact ⟨c, first, word.le_first c first⟩
  have solid : ∀ c ∈ text.toList, c ≠ ' ' ∧ c ≠ '\t' := by
    intro c member
    have word := word.words c member
    constructor <;> rintro rfl <;> cases word
  rw [Assembly.isValidName_iff]
  exact ⟨fun valid => valid.2.2, fun free => ⟨letter, solid, free⟩⟩

/-- A name that is no word may be declared, but no program can contain it. -/
example : Declaration.isValidName "a-b" ∧
    TokenStream.ofSource "a-b" = .broken ⟨.invalidCharacter '-', some ⟨0, 1, 1⟩⟩ := by
  decide +kernel

end Assembly

namespace VariableTable

/-- A declaration is accepted if its name is valid and new, and its size is within the memory. -/
theorem add_eq_ok_iff {t : VariableTable} {d : Declaration} {memorySize : Nat} :
    t.add d memorySize = .ok (d.toVariable, ⟨t.entries ++ [d.toVariable]⟩) ↔
      Declaration.isValidName d.name ∧ t.contains d.name = false ∧
        d.size ≤ memorySize ∧ 0 < d.actualSize := by
  have unsized (size : d.size = 0) (initial : d.initial.isNone) : d.actualSize = 0 := by
    rw [Declaration.actualSize, Option.isNone_iff_eq_none.mp initial, size]
  rw [add]
  grind

theorem add_of_invalid {d : Declaration} (invalid : ¬ Declaration.isValidName d.name)
    (t : VariableTable) (memorySize : Nat) :
    t.add d memorySize = .error (.invalidName d.name) :=
  if_pos (by rw [Bool.eq_false_iff.mpr invalid]; rfl)

end VariableTable

namespace Assembly

/-- A word that does not start with a digit is read as a name, and as nothing else, exactly if a
variable may have that name. So if a lexer hands out a name or sees it ahead, in whatever text and
after whatever calls, then it can be declared unless it already is, or the size is wrong. What is
the same name as a keyword, a register or an operator in any of its spellings cannot be declared. -/
theorem names_declarable :
    (∀ text, PlainWord text →
      (TokenStream.ofSource text = .token ⟨.identifier text, {}⟩ .done ↔
        Declaration.isValidName text)) ∧
    (∀ source calls call name p,
      (Lexer.ofSource source).answer calls call = .ok (some ⟨.identifier name, p⟩) →
      ∀ (t : VariableTable) (d : Declaration) (memorySize : Nat), d.name = name →
        (t.add d memorySize = .ok (d.toVariable, ⟨t.entries ++ [d.toVariable]⟩) ↔
          t.contains name = false ∧ d.size ≤ memorySize ∧ 0 < d.actualSize)) ∧
    ∀ word, word ∈ keywords ∨ (∃ r : Register, r.name = word) ∨
        (∃ op : Operator, word ∈ op.spellings) →
      ∀ (t : VariableTable) (d : Declaration) (memorySize : Nat),
        VariableTable.key d.name = VariableTable.key word →
          t.add d memorySize = .error (.invalidName d.name) := by
  refine ⟨fun text word => ?_, ?_, ?_⟩
  · rw [word.ofSource_eq, word.isValidName_iff, TokenStream.token.injEq, Lexeme.mk.injEq]
    simp only [and_true, ofName_eq_identifier_iff, true_and]
  · rintro source calls call name p found t d memorySize rfl
    obtain ⟨text, before, after, -, -, stands⟩ := Lexer.exists_fits_of_answer found
    obtain ⟨word, free⟩ := plainWord_of_stands stands
    rw [VariableTable.add_eq_ok_iff, word.isValidName_iff]
    exact and_iff_right free
  · intro word meaning t d memorySize same
    have member : word ∈ vocabulary := mem_vocabulary_iff.mpr meaning
    have lowered : Text.lower d.name = word := same.trans (lower_of_mem_vocabulary member)
    refine VariableTable.add_of_invalid (fun valid => ?_) t memorySize
    exact (isValidName_iff.mp valid).2.2 (lowered ▸ member)

/-- The dotted capital does not lower-case to the letter in `in`. -/
theorem names_declarable_dotted :
    (PlainWord "İn" ∧ Declaration.isValidName "İn" ∧
      TokenStream.ofSource "İn" = .token ⟨.identifier "İn", {}⟩ .done) ∧
    (let source := "mov eax, Größe"
      let d : Declaration := { name := "Größe", size := 4 }
      (Lexer.ofSource source).answer [.next, .next, .peek, .next] .peek =
          .ok (some ⟨.identifier "Größe", ⟨0, 9, 9⟩⟩) ∧
        ({} : VariableTable).add d 64 = .ok (d.toVariable, ⟨[d.toVariable]⟩)) ∧
    ("in" ∈ (Operator.port .input).spellings ∧ VariableTable.key "IN" = VariableTable.key "in" ∧
      ({} : VariableTable).add { name := "IN", size := 4 } 64 = .error (.invalidName "IN")) := by
  have word : PlainWord "İn" :=
    ⟨by decide, List.all_eq_true.mp (by decide +kernel), by rintro c ⟨⟩; decide⟩
  have valid : Declaration.isValidName "İn" := by decide +kernel
  have ahead : (Lexer.ofSource "mov eax, Größe").answer [.next, .next, .peek, .next] .peek =
      .ok (some ⟨.identifier "Größe", ⟨0, 9, 9⟩⟩) := by decide +kernel
  have same : VariableTable.key "IN" = VariableTable.key "in" := by decide +kernel
  obtain ⟨read, declared, refused⟩ := names_declarable
  refine ⟨⟨word, valid, (read _ word).mpr valid⟩, ⟨ahead, ?_⟩, by decide, same, ?_⟩
  · exact (declared _ _ _ _ _ ahead {} _ 64 rfl).mpr ⟨rfl, by decide, by decide⟩
  · exact refused "in" (.inr (.inr ⟨.port .input, by decide⟩)) {} _ 64 same

end Assembly

end ReducedX86
