import Mathlib.Data.List.Forall2
import ReducedX86.Proofs.Assembly.Respelling
import ReducedX86.Proofs.Assembly.Scanning

/-!
Letters are read alike in either case.

All letters are of one class wherever the reader distinguishes characters, and a word is lower-cased
before it is looked at. So texts that differ in the case of letters only have the same tokens, except
that names are kept as they are written.
-/
namespace ReducedX86

namespace Text

theorem isUpper_iff {c : Char} : c.isUpper ↔ 0x41 ≤ c.toNat ∧ c.toNat ≤ 0x5A :=
  decide_eq_true_iff

theorem toLower_of_not_isUpper {c : Char} (h : ¬ c.isUpper) : c.toLower = c := by
  refine dif_neg fun upper => h ?_
  exact isUpper_iff.mpr upper

theorem toNat_toLower_of_isUpper {c : Char} (h : c.isUpper) : c.toLower.toNat = c.toNat + 32 := by
  have range := isUpper_iff.mp h
  have lowered : c.toLower.val = c.val + 32 := congrArg Char.val (dif_pos range)
  rw [Char.toNat, lowered, UInt32.toNat_add]
  change (c.toNat + 32) % 4294967296 = c.toNat + 32
  omega

/-- The characters are the same but for the case of letters. -/
def Recased (c d : Char) : Prop := c.toLower = d.toLower

namespace Recased

variable {c d : Char}

theorem isAlpha_of_isUpper (same : Recased c d) (upper : c.isUpper) (other : ¬ d.isUpper) :
    c.isAlpha ∧ d.isAlpha := by
  rw [Recased, toLower_of_not_isUpper other] at same
  have range := isUpper_iff.mp upper
  have lower : d.isLower := isLower_iff.mpr (by
    rw [← same, toNat_toLower_of_isUpper upper]
    omega)
  exact ⟨Bool.or_eq_true_iff.mpr (.inl upper), Bool.or_eq_true_iff.mpr (.inr lower)⟩

theorem eq_or_isAlpha (same : Recased c d) : c = d ∨ c.isAlpha ∧ d.isAlpha := by
  by_cases upper : c.isUpper <;> by_cases upper' : d.isUpper
  · have number := congrArg Char.toNat same
    rw [toNat_toLower_of_isUpper upper, toNat_toLower_of_isUpper upper'] at number
    exact .inl (Char.toNat_inj.mp (Nat.add_right_cancel number))
  · exact .inr (same.isAlpha_of_isUpper upper upper')
  · exact .inr (isAlpha_of_isUpper same.symm upper' upper).symm
  · rw [Recased, toLower_of_not_isUpper upper, toLower_of_not_isUpper upper'] at same
    exact .inl same

/-- What is the same for all letters is not changed by their case. -/
theorem congr {β : Type} {f : Char → β} {b : β} (letters : ∀ c : Char, c.isAlpha → f c = b)
    (same : Recased c d) : f c = f d := by
  rcases same.eq_or_isAlpha with rfl | ⟨letter, letter'⟩
  · rfl
  · rw [letters c letter, letters d letter']

end Recased

/-! Lower-casing -/

theorem case_of_isAlpha {c : Char} (letter : c.isAlpha) :
    isCased c = true ∧ isCaseIgnorable c = false := by
  have all : ∀ n < 0x80, (Char.ofNat n).isAlpha →
      isCased (Char.ofNat n) = true ∧ isCaseIgnorable (Char.ofNat n) = false := by
    decide +kernel
  have range := toNat_of_isAlphanum (Bool.or_eq_true_iff.mpr (.inl letter))
  have here := all c.toNat (by omega)
  rw [Char.ofNat_toNat] at here
  exact here letter

theorem Recased.isCaseIgnorable {c d : Char} (same : Recased c d) :
    isCaseIgnorable c = isCaseIgnorable d :=
  same.congr fun _ letter => (case_of_isAlpha letter).2

theorem Recased.isCased {c d : Char} (same : Recased c d) : isCased c = isCased d :=
  same.congr fun _ letter => (case_of_isAlpha letter).1

theorem startsCased_recased {cs ds : List Char} (same : List.Forall₂ Recased cs ds) :
    startsCased cs = startsCased ds := by
  induction same with
  | nil => rfl
  | @cons c d cs ds first rest ih =>
      rw [startsCased, startsCased, List.dropWhile_cons, List.dropWhile_cons, first.isCaseIgnorable]
      cases isCaseIgnorable d with
      | true => exact ih
      | false => exact first.isCased

theorem lowerChars_recased {cs ds : List Char} (same : List.Forall₂ Recased cs ds)
    (afterCased : Bool) : lowerChars afterCased cs = lowerChars afterCased ds := by
  induction same generalizing afterCased with
  | nil => rfl
  | @cons c d cs ds first rest ih =>
      rw [lowerChars, lowerChars, startsCased_recased rest, ih, first.isCaseIgnorable, first.isCased]
      rcases first.eq_or_isAlpha with rfl | ⟨letter, letter'⟩
      · rfl
      · have range := toNat_of_isAlphanum (Bool.or_eq_true_iff.mpr (.inl letter))
        have range' := toNat_of_isAlphanum (Bool.or_eq_true_iff.mpr (.inl letter'))
        have ascii : c.toNat < 0x80 := by omega
        have ascii' : d.toNat < 0x80 := by omega
        have noSigma : c.toNat ≠ 0x3A3 := by omega
        have noSigma' : d.toNat ≠ 0x3A3 := by omega
        rw [if_neg noSigma, if_neg noSigma', lowerChar, lowerChar, if_pos ascii, if_pos ascii', first]

theorem lower_recased {cs ds : List Char} (same : List.Forall₂ Recased cs ds) :
    lower (String.ofList cs) = lower (String.ofList ds) := by
  rw [lower, lower, String.toList_ofList, String.toList_ofList, lowerChars_recased same]

/-! No capital letter is left -/

theorem not_isUpper_toLower (c : Char) : ¬ c.toLower.isUpper := by
  by_cases upper : c.isUpper
  · have range := isUpper_iff.mp upper
    rw [isUpper_iff, toNat_toLower_of_isUpper upper]
    omega
  · rwa [toLower_of_not_isUpper upper]

/-- No character is sent to a capital letter of ASCII. -/
theorem not_isUpper_of_image {run : CaseRun} (listed : run ∈ caseRuns) {c d : Char}
    (image : run.image? c = some d) : ¬ d.isUpper := by
  have beyond : ∀ run ∈ caseRuns, 0x5A < run.target := by decide +kernel
  obtain ⟨-, image⟩ := Option.ite_none_right_eq_some.mp image
  have target := beyond run listed
  have sent : d.toNat = run.target + (c.toNat - run.first) ∨ d.toNat = 0 := by
    rw [← Option.some.inj image]
    by_cases valid : (run.target + (c.toNat - run.first)).isValidChar
    · exact .inl (congrArg Char.toNat (dif_pos valid))
    · exact .inr (congrArg Char.toNat (dif_neg valid))
  rw [isUpper_iff]
  omega

theorem not_isUpper_of_mem_lowerChar {c d : Char} (member : d ∈ lowerChar c) : ¬ d.isUpper := by
  rw [lowerChar] at member
  split at member
  · rw [List.mem_singleton.mp member]
    exact not_isUpper_toLower c
  · rename_i ascii
    split at member
    · rcases List.mem_cons.mp member with rfl | dot
      · decide
      · rw [List.mem_singleton.mp dot]
        decide
    · cases found : caseRuns.findSome? (·.image? c) with
      | none =>
          rw [found, Option.getD_none, List.mem_singleton] at member
          rw [member, isUpper_iff]
          omega
      | some image =>
          rw [found, Option.getD_some, List.mem_singleton] at member
          obtain ⟨run, listed, sent⟩ := List.exists_of_findSome?_eq_some found
          exact member ▸ not_isUpper_of_image listed sent

/-- Lower-casing leaves no capital letter of ASCII, whatever the characters are. -/
theorem not_isUpper_of_mem_lowerChars {cs : List Char} {afterCased : Bool} :
    ∀ d ∈ lowerChars afterCased cs, ¬ d.isUpper := by
  induction cs generalizing afterCased with
  | nil => exact List.forall_mem_nil _
  | cons c rest ih =>
      intro d member
      rw [lowerChars, List.mem_append] at member
      rcases member with here | later
      · split at here
        · -- both forms of sigma are beyond ASCII
          rw [List.mem_singleton.mp here]
          split <;> decide
        · exact not_isUpper_of_mem_lowerChar here
      · exact ih d later

/-- A lower-cased text is not changed when its ASCII letters are lower-cased once more. -/
theorem map_toLower_lower (s : String) : (lower s).map Char.toLower = lower s := by
  have lowered : ∀ c ∈ (lower s).toList, c.toLower = id c := by
    rw [lower, String.toList_ofList]
    exact fun c member => toLower_of_not_isUpper (not_isUpper_of_mem_lowerChars c member)
  rw [← String.toList_inj, String.toList_map, List.map_congr_left lowered, List.map_id]

end Text

namespace Token

open Text

/-! Characters -/

theorem isWordChar_of_isAlpha {c : Char} (letter : c.isAlpha) : isWordChar c :=
  isWordChar_of_isAlphanum (Bool.or_eq_true_iff.mpr (.inl letter))

theorem isSolid_of_isAlpha {c : Char} (letter : c.isAlpha) : isSolid c :=
  isSolid_of_isWordChar (isWordChar_of_isAlpha letter)

theorem not_le_nine_of_isAlpha {c : Char} (letter : c.isAlpha) : ¬ c ≤ '9' := by
  intro le
  have digits : c.toNat ≤ 57 := le
  rcases Bool.or_eq_true_iff.mp letter with upper | lower
  · have range := isUpper_iff.mp upper
    omega
  · have range := isLower_iff.mp lower
    omega

section Classes

variable {c d : Char} (same : Recased c d)
include same

theorem isSeparator_recased : isSeparator c = isSeparator d :=
  same.congr fun _ letter => (not_isSeparator_of_isSolid (isSolid_of_isAlpha letter)).1

theorem isLineBreak_recased : isLineBreak c = isLineBreak d :=
  same.congr fun _ letter => not_isLineBreak_of_isSolid (isSolid_of_isAlpha letter)

theorem comment_recased : (c == ';') = (d == ';') :=
  same.congr fun _ letter =>
    beq_eq_false_iff_ne.mpr (not_isSeparator_of_isSolid (isSolid_of_isAlpha letter)).2

theorem sign_recased : (c == '-') = (d == '-') := by
  refine same.congr (f := (· == '-')) fun e letter => beq_eq_false_iff_ne.mpr ?_
  rintro rfl
  cases letter

theorem le_nine_recased : (c ≤ '9') = (d ≤ '9') :=
  same.congr fun _ letter => eq_false (not_le_nine_of_isAlpha letter)

theorem punctuation?_recased : punctuation? c = punctuation? d :=
  same.congr fun _ letter => punctuation?_of_isAlphanum (Bool.or_eq_true_iff.mpr (.inl letter))

theorem isWordChar_recased : isWordChar c = isWordChar d :=
  same.congr fun _ letter => isWordChar_of_isAlpha letter

theorem eq_of_not_isWordChar (other : isWordChar c = false) : c = d := by
  refine same.eq_or_isAlpha.resolve_right fun letters => ?_
  rw [isWordChar_of_isAlpha letters.1] at other
  cases other

end Classes

/-! Words -/

section Words

variable {ρ : Respelling}
  (names : ∀ n n', VariableTable.key n = VariableTable.key n' → ρ.name n = ρ.name n')
include names

theorem ofName_recased {name name' : String} (same : Text.lower name = Text.lower name') :
    ρ.token (ofName name) = ρ.token (ofName name') := by
  rw [ofName, ofName, same]
  split
  · rfl
  · rfl
  · rfl
  · rfl
  · cases Register.ofName? (Text.lower name') with
    | some r => rfl
    | none =>
        cases Operator.ofName? (Text.lower name') with
        | some op => rfl
        | none => exact congrArg identifier (names name name' same)

theorem ofWord_recased {cs ds : List Char} (same : List.Forall₂ Recased cs ds) :
    (ofWord cs).map ρ.token = (ofWord ds).map ρ.token := by
  have lowered := lower_recased same
  cases same with
  | nil => rfl
  | @cons c d cs ds first rest =>
      have number : Numeral.read (String.ofList (c :: cs)) =
          Numeral.read (String.ofList (d :: ds)) := by
        rw [Numeral.read, Numeral.read, lowered]
      simp only [ofWord, le_nine_recased first, number]
      split
      · rfl
      · exact congrArg Except.ok (ofName_recased names lowered)

end Words

section Runs

variable {cs ds : List Char} (same : List.Forall₂ Recased cs ds)
include same

theorem takeWhile_recased :
    List.Forall₂ Recased (cs.takeWhile isWordChar) (ds.takeWhile isWordChar) := by
  induction same with
  | nil => exact .nil
  | @cons c d cs ds first rest ih =>
      rw [List.takeWhile_cons, List.takeWhile_cons, isWordChar_recased first]
      cases isWordChar d with
      | true => exact .cons first ih
      | false => exact .nil

theorem dropWhile_recased :
    List.Forall₂ Recased (cs.dropWhile isWordChar) (ds.dropWhile isWordChar) := by
  induction same with
  | nil => exact .nil
  | @cons c d cs ds first rest ih =>
      rw [List.dropWhile_cons, List.dropWhile_cons, isWordChar_recased first]
      cases isWordChar d with
      | true => exact ih
      | false => exact .cons first rest

/-- No letter stands behind a word. -/
theorem head?_dropWhile_recased :
    (cs.dropWhile isWordChar).head? = (ds.dropWhile isWordChar).head? := by
  induction same with
  | nil => rfl
  | @cons c d cs ds first rest ih =>
      rw [List.dropWhile_cons, List.dropWhile_cons]
      cases other : isWordChar c with
      | true =>
          rw [← isWordChar_recased first, other]
          exact ih
      | false =>
          rw [← isWordChar_recased first, other]
          exact congrArg some (eq_of_not_isWordChar first other)

end Runs

/-- The same is found in both texts: nothing, an error, or tokens that are the same but for
names. -/
theorem scan_recased {ρ : Respelling}
    (names : ∀ n n', VariableTable.key n = VariableTable.key n' → ρ.name n = ρ.name n')
    {cs ds : List Char} (same : List.Forall₂ Recased cs ds) :
    (scan cs = .ok none ∧ scan ds = .ok none) ∨
    (∃ kind, scan cs = .error kind ∧ scan ds = .error kind) ∨
    ∃ t u rest rest', scan cs = .ok (some (t, rest)) ∧ scan ds = .ok (some (u, rest')) ∧
      ρ.token t = ρ.token u ∧ List.Forall₂ Recased rest rest' := by
  cases same with
  | nil => exact .inl ⟨rfl, rfl⟩
  | @cons c d cs ds first rest =>
      simp only [scan, punctuation?_recased first, sign_recased first, isWordChar_recased first,
        head?_dropWhile_recased rest]
      cases punctuation? d with
      | some t => exact .inr (.inr ⟨t, t, cs, ds, rfl, rfl, rfl, rest⟩)
      | none =>
          simp only
          split
          · cases (ds.dropWhile isWordChar).head?.filter (!endsWord ·) with
            | some bad => exact .inr (.inl ⟨_, rfl, rfl⟩)
            | none =>
                have read := ofWord_recased names (.cons first (takeWhile_recased rest))
                cases found : ofWord (c :: cs.takeWhile isWordChar) <;>
                  cases found' : ofWord (d :: ds.takeWhile isWordChar) <;>
                  rw [found, found'] at read
                · cases read
                  exact .inr (.inl ⟨_, rfl, rfl⟩)
                · cases read
                · cases read
                · exact .inr (.inr
                    ⟨_, _, _, _, rfl, rfl, Except.ok.inj read, dropWhile_recased rest⟩)
          · rename_i starts
            have other : isWordChar c = false := by
              rw [isWordChar_recased first]
              exact (Bool.or_eq_false_iff.mp (Bool.eq_false_iff.mpr starts)).2
            rw [eq_of_not_isWordChar first other]
            exact .inr (.inl ⟨_, rfl, rfl⟩)

end Token

theorem Cursor.separate_recased {cs ds : List Char} (same : List.Forall₂ Text.Recased cs ds)
    (inside : Bool) :
    List.Forall₂ Text.Recased (separate inside cs).2 (separate inside ds).2 := by
  induction same generalizing inside with
  | nil => exact .nil
  | @cons c d cs ds first rest ih =>
      have goesOn : commented inside [c] = commented inside [d] := by
        simp only [commented_cons, commented_nil, Token.isLineBreak_recased first,
          Token.comment_recased first]
      rw [separate, separate, Token.isSeparator_recased first, Token.comment_recased first, goesOn]
      split
      · exact ih _
      · exact .cons first rest

end ReducedX86
