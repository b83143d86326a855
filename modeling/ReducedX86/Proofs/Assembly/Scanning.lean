import Mathlib.Data.List.TakeWhile
import ReducedX86.Proofs.Assembly.Lexing

/-!
How the next token of a text is found.

The reader passes over blanks, line breaks and comments. It does so character by character, with one
bit of memory: whether a comment is open. The pairs of break characters matter for positions only,
which follow from the characters passed. Then it takes a punctuation character or a word.
-/
namespace ReducedX86

namespace Token

/-- Blanks and line breaks. -/
def isSeparator (c : Char) : Bool := isLineBreak c || isBlank c

theorem endsWord_of_isSeparator {c : Char} (separates : isSeparator c) : endsWord c := by
  rw [isSeparator] at separates
  simp [endsWord, separates]

theorem not_isSeparator_of_isSolid {c : Char} (solid : isSolid c) :
    isSeparator c = false ∧ c ≠ ';' := by
  simp only [isSolid, Bool.and_eq_true, Bool.not_eq_true', bne_iff_ne] at solid
  simp [isSeparator, solid]

theorem not_isLineBreak_of_isSolid {c : Char} (solid : isSolid c) : isLineBreak c = false :=
  (Bool.or_eq_false_iff.mp (not_isSeparator_of_isSolid solid).1).1

end Token

namespace Cursor

/-! Comments -/

/-- The characters end within a comment: after a semicolon, and with no line break since. -/
def EndsInComment (cs : List Char) : Prop :=
  ∃ before body, cs = before ++ ';' :: body ∧ ∀ c ∈ body, ¬ Token.isLineBreak c

theorem endsInComment_cons {c : Char} {cs : List Char} :
    EndsInComment (c :: cs) ↔
      (c = ';' ∧ ∀ d ∈ cs, ¬ Token.isLineBreak d) ∨ EndsInComment cs := by
  constructor
  · rintro ⟨_ | ⟨b, before⟩, body, same, unbroken⟩
    · cases same
      exact .inl ⟨rfl, unbroken⟩
    · cases same
      exact .inr ⟨before, body, rfl, unbroken⟩
  · rintro (⟨rfl, unbroken⟩ | ⟨before, body, rfl, unbroken⟩)
    · exact ⟨[], cs, rfl, unbroken⟩
    · exact ⟨c :: before, body, rfl, unbroken⟩

/-- Whether a comment is open after characters, if one is before them as `inside` tells. -/
def commented (inside : Bool) (cs : List Char) : Bool :=
  cs.foldl (fun inside c => !Token.isLineBreak c && (inside || c == ';')) inside

@[simp] theorem commented_nil (inside : Bool) : commented inside [] = inside := rfl

theorem commented_cons (inside : Bool) (c : Char) (cs : List Char) :
    commented inside (c :: cs) = commented (!Token.isLineBreak c && (inside || c == ';')) cs := rfl

theorem commented_append (inside : Bool) (xs ys : List Char) :
    commented inside (xs ++ ys) = commented (commented inside xs) ys := List.foldl_append

theorem commented_eq_true_iff (inside : Bool) (cs : List Char) :
    commented inside cs = true ↔
      (inside = true ∧ ∀ c ∈ cs, ¬ Token.isLineBreak c) ∨ EndsInComment cs := by
  induction cs generalizing inside with
  | nil => simp [EndsInComment]
  | cons c rest ih =>
      rw [commented_cons, ih, endsInComment_cons]
      have noBreak : c = ';' → Token.isLineBreak c = false := by
        rintro rfl
        decide
      simp only [Bool.and_eq_true, Bool.not_eq_true', Bool.or_eq_true, beq_iff_eq,
        List.forall_mem_cons, Bool.not_eq_true]
      grind

theorem commented_iff (cs : List Char) : commented false cs = true ↔ EndsInComment cs := by
  simp [commented_eq_true_iff]

theorem commented_of_isSolid {cs : List Char} (solid : ∀ c ∈ cs, Token.isSolid c) :
    commented false cs = false := by
  induction cs with
  | nil => rfl
  | cons c rest ih =>
      obtain ⟨first, others⟩ := List.forall_mem_cons.mp solid
      have plain : (c == ';') = false :=
        beq_eq_false_iff_ne.mpr (Token.not_isSeparator_of_isSolid first).2
      rw [commented_cons, plain, Bool.or_false, Bool.and_false]
      exact ih others

/-! Positions -/

/-- The position after characters; break characters pair up from the left. -/
def past (p : Position) : List Char → Position
  | [] => p
  | '\n' :: '\r' :: rest => past (below p 2) rest
  | '\r' :: '\n' :: rest => past (below p 2) rest
  | c :: rest => if Token.isLineBreak c then past (below p 1) rest else past (along p 1) rest

/-- Two characters are one line break. -/
def IsPair (c d : Char) : Prop := (c = '\n' ∧ d = '\r') ∨ (c = '\r' ∧ d = '\n')

theorem IsPair.breaks {c d : Char} (pair : IsPair c d) :
    Token.isLineBreak c = true ∧ Token.isLineBreak d = true := by
  rcases pair with ⟨rfl, rfl⟩ | ⟨rfl, rfl⟩ <;> decide

theorem past_cons {c : Char} {rest : List Char} (alone : ∀ d ∈ rest.head?, ¬ IsPair c d)
    (p : Position) :
    past p (c :: rest) = past (if Token.isLineBreak c then below p 1 else along p 1) rest := by
  rw [past]
  · split <;> rfl
  · rintro tail rfl rfl
    exact alone _ rfl (.inl ⟨rfl, rfl⟩)
  · rintro tail rfl rfl
    exact alone _ rfl (.inr ⟨rfl, rfl⟩)

theorem past_append {xs ys : List Char}
    (seam : (∀ c ∈ xs.getLast?, Token.isLineBreak c = false) ∨
      ∀ c ∈ ys.head?, Token.isLineBreak c = false) (p : Position) :
    past p (xs ++ ys) = past (past p xs) ys := by
  fun_induction past p xs with
  | case1 p => rfl
  | case2 p rest ih | case3 p rest ih =>
      refine ih (seam.imp_left fun last c member => last c ?_)
      cases rest with
      | nil => cases member
      | cons d rest => exact member
  | case4 p c rest noPair noPair' broken ih | case5 p c rest noPair noPair' broken ih =>
      have alone : ∀ d ∈ (rest ++ ys).head?, ¬ IsPair c d := by
        cases rest with
        | nil =>
            intro d member pair
            rcases seam with last | first
            · exact absurd pair.breaks.1 (Bool.eq_false_iff.mp (last c rfl))
            · exact absurd pair.breaks.2 (Bool.eq_false_iff.mp (first d member))
        | cons e rest =>
            rintro d ⟨⟩ (⟨rfl, rfl⟩ | ⟨rfl, rfl⟩)
            · exact noPair rest rfl rfl
            · exact noPair' rest rfl rfl
      rw [List.cons_append, past_cons alone]
      simp only [broken, if_true, if_false, Bool.false_eq_true]
      refine ih (seam.imp_left fun last d member => last d ?_)
      cases rest with
      | nil => cases member
      | cons e rest => exact member

/-- Without line breaks, positions advance along a line. -/
theorem past_unbroken {cs : List Char} (unbroken : ∀ c ∈ cs, Token.isLineBreak c = false)
    (p : Position) : past p cs = along p cs.length := by
  induction cs generalizing p with
  | nil => rfl
  | cons c rest ih =>
      obtain ⟨first, others⟩ := List.forall_mem_cons.mp unbroken
      have alone : ∀ d ∈ rest.head?, ¬ IsPair c d := fun d _ pair => by
        rw [pair.breaks.1] at first
        cases first
      rw [past_cons alone, first, if_neg Bool.false_ne_true, ih others]
      simp only [along, List.length_cons, Position.mk.injEq, true_and]
      omega

/-! Gaps -/

/-- The characters that are passed over, in a comment or not, and those that are left. -/
def separate (inside : Bool) : List Char → List Char × List Char
  | [] => ([], [])
  | c :: rest =>
      if Token.isSeparator c || inside || c == ';' then
        let (gap, left) := separate (commented inside [c]) rest
        (c :: gap, left)
      else ([], c :: rest)

theorem separate_of_passed {inside : Bool} {c : Char}
    (passed : (Token.isSeparator c || inside || c == ';') = true) (rest : List Char) :
    separate inside (c :: rest) =
      (c :: (separate (commented inside [c]) rest).1, (separate (commented inside [c]) rest).2) := by
  rw [separate, if_pos passed]

theorem separate_of_break {c : Char} (breaks : Token.isLineBreak c) (inside : Bool)
    (rest : List Char) :
    separate inside (c :: rest) = (c :: (separate false rest).1, (separate false rest).2) := by
  have passed : (Token.isSeparator c || inside || c == ';') = true := by
    simp [Token.isSeparator, breaks]
  have closed : commented inside [c] = false := by simp [commented, breaks]
  rw [separate_of_passed passed, closed]

theorem separate_of_isSolid {c : Char} (solid : Token.isSolid c) (rest : List Char) :
    separate false (c :: rest) = ([], c :: rest) := by
  obtain ⟨separates, comment⟩ := Token.not_isSeparator_of_isSolid solid
  simp [separate, separates, comment]

theorem past_gap {c : Char} {rest : List Char}
    (noPair : ∀ tail, c = '\n' → rest = '\r' :: tail → False)
    (noPair' : ∀ tail, c = '\r' → rest = '\n' :: tail → False) (inside : Bool) (p : Position) :
    past p (c :: (separate inside rest).1) =
      past (if Token.isLineBreak c then below p 1 else along p 1) (separate inside rest).1 := by
  refine past_cons (fun d first pair => ?_) p
  cases rest with
  | nil => cases first
  | cons e rest =>
      rw [separate] at first
      split at first
      · cases first
        rcases pair with ⟨rfl, rfl⟩ | ⟨rfl, rfl⟩
        · exact noPair rest rfl rfl
        · exact noPair' rest rfl rfl
      · cases first

/-- What the reader passes over, and where it stops. -/
theorem skipFrom_eq (inside : Bool) (p : Position) (cs : List Char) :
    skipFrom inside p cs = ⟨(separate inside cs).2, past p (separate inside cs).1⟩ := by
  fun_induction skipFrom inside p cs with
  | case1 inside p => rfl
  | case2 inside p rest ih | case3 inside p rest ih =>
      rw [ih, separate_of_break (by decide), separate_of_break (by decide)]
      rfl
  | case4 inside p c rest noPair noPair' breaks ih =>
      rw [ih, separate_of_break breaks, past_gap noPair noPair', if_pos breaks]
  | case5 inside p c rest noPair noPair' unbroken passed ih =>
      have goesOn : (Token.isSeparator c || inside || c == ';') = true := by
        rw [Token.isSeparator]
        rcases Bool.or_eq_true_iff.mp passed with comment | blank
        · simp [comment]
        · simp [blank]
      have same : commented inside [c] = inside := by
        rw [commented_cons, Bool.eq_false_iff.mpr unbroken]
        cases inside with
        | true => rfl
        | false =>
            have plain : (c == ';') = false := beq_eq_false_iff_ne.mpr fun comment => by
              rw [comment] at passed
              cases passed
            rw [plain]
            rfl
      rw [ih, separate_of_passed goesOn, same, past_gap noPair noPair', if_neg unbroken]
  | case6 inside p c rest noPair noPair' unbroken solid comment ih =>
      have goesOn : (Token.isSeparator c || inside || c == ';') = true := by
        rw [comment, Bool.or_true]
      have opens : commented inside [c] = true := by
        simp [commented, unbroken, comment]
      rw [ih, separate_of_passed goesOn, opens, past_gap noPair noPair', if_neg unbroken]
  | case7 inside p c rest noPair noPair' unbroken solid noComment =>
      have stops : ¬ (Token.isSeparator c || inside || c == ';') = true := by
        simp only [Token.isSeparator, Bool.or_eq_true] at solid ⊢
        rintro (((breaks | blank) | comment) | opens)
        · exact unbroken breaks
        · exact solid (.inr blank)
        · exact solid (.inl comment)
        · exact noComment opens
      rw [separate, if_neg stops]
      rfl

variable {inside : Bool} {cs rest : List Char} {c : Char}

theorem separate_append (inside : Bool) (cs : List Char) :
    (separate inside cs).1 ++ (separate inside cs).2 = cs := by
  induction cs generalizing inside with
  | nil => rfl
  | cons c rest ih =>
      rw [separate]
      split
      · exact congrArg (c :: ·) (ih _)
      · rfl

/-- Characters that are separators or in comments, if a comment is open before them as told. -/
def IsGap (inside : Bool) (gap : List Char) : Prop :=
  ∀ before c after, gap = before ++ c :: after →
    Token.isSeparator c ∨ commented inside (before ++ [c])

theorem isGap_separate (inside : Bool) (cs : List Char) : IsGap inside (separate inside cs).1 := by
  intro before c after split
  induction cs generalizing inside before with
  | nil => exact absurd split.symm (List.append_ne_nil_of_right_ne_nil _ (List.cons_ne_nil c after))
  | cons d rest ih =>
      rw [separate] at split
      split at split
      · rename_i passed
        obtain ⟨rfl, later⟩ | ⟨before, rfl, later⟩ := List.cons_eq_append_iff.mp split
        · cases later
          cases separates : Token.isSeparator c with
          | true => exact .inl rfl
          | false =>
              have unbroken := (Bool.or_eq_false_iff.mp separates).1
              rw [separates, Bool.false_or] at passed
              exact .inr (by simp [commented, unbroken, passed])
        · have here := ih _ before later
          rwa [← commented_append] at here
      · exact absurd split.symm (List.append_ne_nil_of_right_ne_nil _ (List.cons_ne_nil c after))

/-- The reader stops outside comments. -/
theorem solid_of_left (left : (separate inside cs).2 = c :: rest) :
    Token.isSolid c ∧ commented inside (separate inside cs).1 = false := by
  induction cs generalizing inside with
  | nil => cases left
  | cons d rest ih =>
      rw [separate] at left ⊢
      split at left
      · rename_i passed
        rw [if_pos passed]
        exact ih left
      · rename_i solid
        rw [if_neg solid]
        cases left
        simp only [Token.isSeparator, Bool.or_eq_true, not_or, Bool.not_eq_true] at solid
        exact ⟨by simp [Token.isSolid, solid, bne], solid.1.2⟩

/-- A text is cut into a gap and what is left, which starts outside comments. -/
theorem cut_of_separate {gap left : List Char} (separated : separate false cs = (gap, left)) :
    gap ++ left = cs ∧ IsGap false gap ∧
      ∀ c ∈ left.head?, Token.isSolid c ∧ commented false gap = false := by
  have whole := separate_append false cs
  have passed := isGap_separate false cs
  rw [separated] at whole passed
  refine ⟨whole, passed, fun c first => ?_⟩
  obtain ⟨rest, here⟩ := List.head?_eq_some_iff.mp first
  have stopped := @solid_of_left false cs rest c
  rw [separated] at stopped
  exact stopped here

end Cursor

/-! Tokens -/

/-- The characters are all that makes up a token between those before and after: a punctuation
character, or a maximal run of word characters with a sign before it or none. -/
inductive Token.Stands (before after : List Char) (t : Token) : List Char → Prop
  | mark {c : Char} (mark : punctuation? c = some t) : Stands before after t [c]
  | word {sign run : List Char} (signed : sign = [] ∨ sign = ['-']) (nonempty : run ≠ [])
      (words : ∀ c ∈ run, isWordChar c)
      (starts : ∀ c ∈ (before ++ sign).getLast?, isWordChar c = false)
      (stops : ∀ c ∈ after.head?, isWordChar c = false)
      (reads : ofWord (sign ++ run) = .ok t) : Stands before after t (sign ++ run)

namespace Token.Stands

variable {before after text : List Char} {t : Token}

theorem solid (stands : Stands before after t text) : ∀ c ∈ text, Token.isSolid c := by
  cases stands with
  | mark mark => exact List.forall_mem_singleton.mpr (Token.isSolid_of_punctuation mark)
  | word signed nonempty words =>
      intro c member
      rcases List.mem_append.mp member with sign | run
      · rcases signed with rfl | rfl
        · cases sign
        · rw [List.mem_singleton.mp sign]
          decide
      · exact Token.isSolid_of_isWordChar (words c run)

theorem nonempty (stands : Stands before after t text) : text ≠ [] := by
  cases stands with
  | mark => exact List.cons_ne_nil _ _
  | word signed nonempty => exact List.append_ne_nil_of_right_ne_nil _ nonempty

/-- A word does not go on after a token. -/
theorem ends (stands : Stands before after t text) :
    ∀ c ∈ text.getLast?, Token.isWordChar c → ∀ d ∈ after.head?, Token.isWordChar d = false := by
  cases stands with
  | mark mark =>
      intro c last word
      have ends : Token.endsWord c := by
        cases last
        simp [Token.endsWord, mark]
      rw [Token.not_isWordChar_of_endsWord ends] at word
      cases word
  | word signed nonempty words starts stops => exact fun _ _ _ => stops

end Token.Stands

/-- No word character is left where a word was taken. -/
theorem Token.head?_dropWhile_isWordChar (cs : List Char) :
    ∀ c ∈ (cs.dropWhile isWordChar).head?, isWordChar c = false := by
  intro c first
  have cut := List.head?_dropWhile_not isWordChar cs
  rw [Option.mem_def.mp first] at cut
  exact cut

/-- A word that is cut out of a text stands there, unless it carries on what is before it. -/
theorem Token.stands_of_word {before rest : List Char} {c : Char} {t : Token}
    (starts : (c == '-' || isWordChar c) = true)
    (reads : ofWord (c :: rest.takeWhile isWordChar) = .ok t)
    (seam : ∀ b ∈ before.getLast?, isWordChar b → isWordChar c = false) :
    t.Stands before (rest.dropWhile isWordChar) (c :: rest.takeWhile isWordChar) := by
  have words : ∀ d ∈ rest.takeWhile isWordChar, isWordChar d := fun d => List.mem_takeWhile_imp
  have stops := head?_dropWhile_isWordChar rest
  cases letter : isWordChar c with
  | true =>
      have starts : ∀ b ∈ (before ++ []).getLast?, isWordChar b = false := by
        intro b last
        rw [List.append_nil] at last
        cases carried : isWordChar b with
        | false => rfl
        | true => exact letter.symm.trans (seam b last carried)
      exact .word (.inl rfl) (List.cons_ne_nil _ _) (List.forall_mem_cons.mpr ⟨letter, words⟩)
        starts stops reads
  | false =>
      rw [letter, Bool.or_false, beq_iff_eq] at starts
      subst starts
      have nonempty : rest.takeWhile isWordChar ≠ [] := by
        intro alone
        have refused : ofWord ['-'] = .error .invalidNumber := by decide
        rw [alone, refused] at reads
        cases reads
      have starts : ∀ b ∈ (before ++ ['-']).getLast?, isWordChar b = false := by
        intro b last
        rw [List.getLast?_concat] at last
        cases last
        rfl
      exact .word (.inr rfl) nonempty words starts stops reads

/-- What is read where no gap is: a token and the characters behind it, or nothing at the end. -/
def Token.scan : List Char → Except AssemblyErrorKind (Option (Token × List Char))
  | [] => .ok none
  | c :: rest =>
      match punctuation? c with
      | some t => .ok (some (t, rest))
      | none =>
          if c == '-' || isWordChar c then
            match (rest.dropWhile isWordChar).head?.filter (!endsWord ·) with
            | some bad => .error (.invalidCharacter bad)
            | none =>
                match ofWord (c :: rest.takeWhile isWordChar) with
                | .ok t => .ok (some (t, rest.dropWhile isWordChar))
                | .error kind => .error kind
          else .error (.invalidCharacter c)

theorem Token.stands_of_scan {cs rest : List Char} {t : Token}
    (found : scan cs = .ok (some (t, rest))) :
    ∃ text, cs = text ++ rest ∧ ∀ before : List Char, (∀ c ∈ before.getLast?, isWordChar c →
      ∀ d ∈ cs.head?, isWordChar d = false) → t.Stands before rest text := by
  cases cs with
  | nil => cases found
  | cons c tail =>
      rw [scan] at found
      split at found
      · rename_i mark
        cases found
        exact ⟨[c], rfl, fun _ _ => .mark mark⟩
      · split at found
        · rename_i starts
          split at found
          · cases found
          · split at found
            · rename_i reads
              cases found
              refine ⟨c :: tail.takeWhile isWordChar, ?_, fun before seam => ?_⟩
              · exact congrArg (c :: ·) List.takeWhile_append_dropWhile.symm
              · exact stands_of_word starts reads fun b last letter => seam b last letter c rfl
            · cases found
        · cases found

/-- Finding a token is passing over a gap, and then reading what is there. -/
theorem Cursor.next_eq_scan {cursor : Cursor} {gap left : List Char}
    (separated : separate false cursor.rest = (gap, left)) :
    match Token.scan left with
    | .ok none => ∃ after, cursor.next = (.ok none, after)
    | .ok (some (t, rest)) =>
        cursor.next = (.ok (some ⟨t, past cursor.position gap⟩),
          ⟨rest, along (past cursor.position gap) (left.length - rest.length)⟩)
    | .error kind => ∃ p after, cursor.next = (.error (kind.at p), after) := by
  have skipped : cursor.skip = ⟨left, past cursor.position gap⟩ := by
    rw [skip, skipFrom_eq, separated]
  unfold next
  rw [skipped]
  cases left with
  | nil => exact ⟨_, rfl⟩
  | cons c rest =>
      have word_length : (c :: rest).length - (rest.dropWhile Token.isWordChar).length =
          (rest.takeWhile Token.isWordChar).length + 1 := by
        have whole := congrArg List.length (@List.takeWhile_append_dropWhile _ Token.isWordChar rest)
        rw [List.length_append] at whole
        rw [List.length_cons, ← whole]
        omega
      cases mark : Token.punctuation? c with
      | some t => simp [Token.scan, mark]
      | none =>
          by_cases starts : (c == '-' || Token.isWordChar c) = true
          · simp only [Token.scan, mark, if_pos starts, word]
            cases (rest.dropWhile Token.isWordChar).head?.filter (!Token.endsWord ·) with
            | some bad => exact ⟨_, _, rfl⟩
            | none =>
                cases Token.ofWord (c :: rest.takeWhile Token.isWordChar) with
                | error kind => exact ⟨_, _, rfl⟩
                | ok t => simp only [word_length]
          · simp only [Token.scan, mark, if_neg starts]
            exact ⟨_, _, rfl⟩

theorem Token.scan_eq_none {cs : List Char} (ended : scan cs = .ok none) : cs = [] := by
  cases cs with
  | nil => rfl
  | cons c rest =>
      rw [scan] at ended
      split at ended
      · cases ended
      · split at ended
        · split at ended
          · cases ended
          · split at ended <;> cases ended
        · cases ended

theorem Cursor.left_eq_nil_of_next {cursor after : Cursor} {gap left : List Char}
    (separated : separate false cursor.rest = (gap, left))
    (ended : cursor.next = (.ok none, after)) : left = [] := by
  have read := next_eq_scan separated
  rw [ended] at read
  split at read
  · exact Token.scan_eq_none ‹_›
  · cases read
  · obtain ⟨p, after, other⟩ := read
    cases other

theorem Cursor.scan_of_next {cursor after : Cursor} {t : Lexeme} {gap left : List Char}
    (separated : separate false cursor.rest = (gap, left))
    (found : cursor.next = (.ok (some t), after)) :
    Token.scan left = .ok (some (t.token, after.rest)) ∧
      t.position = past cursor.position gap ∧
      after.position = along t.position (left.length - after.rest.length) := by
  have read := next_eq_scan separated
  rw [found] at read
  split at read
  · obtain ⟨after, other⟩ := read
    cases other
  · cases read
    exact ⟨‹_›, rfl, rfl⟩
  · obtain ⟨p, after, other⟩ := read
    cases other

end ReducedX86
