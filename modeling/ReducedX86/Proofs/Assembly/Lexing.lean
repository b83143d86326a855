import ReducedX86.Proofs.Assembly.Addressing
import ReducedX86.Proofs.Assembly.Numeral

/-!
How a text made of pieces is read as tokens.

A piece reads as some tokens if it does so wherever it stands, as long as a character that ends a
word follows it, or nothing. Such pieces are words of letters and digits, and punctuation and blanks
in front of other pieces; they can be put together if the later piece begins so that it ends
a word.
-/
namespace ReducedX86

namespace TokenStream

theorem ofCursor_of_end {cursor after : Cursor} (h : cursor.next = (.ok none, after)) :
    ofCursor cursor = .done := by
  rw [ofCursor]
  split <;> simp_all

theorem ofCursor_of_next {cursor after : Cursor} {t : Lexeme}
    (h : cursor.next = (.ok (some t), after)) : ofCursor cursor = .token t (ofCursor after) := by
  rw [ofCursor]
  split <;> simp_all

theorem ofCursor_of_error {cursor after : Cursor} {e : AssemblyError}
    (h : cursor.next = (.error e, after)) : ofCursor cursor = .broken e := by
  rw [ofCursor]
  split <;> simp_all

theorem ofCursor_congr {cursor cursor' : Cursor} (h : cursor.next = cursor'.next) :
    ofCursor cursor = ofCursor cursor' := by
  rcases found : cursor'.next with ⟨_ | _ | t, after⟩
  · rw [ofCursor_of_error (h.trans found), ofCursor_of_error found]
  · rw [ofCursor_of_end (h.trans found), ofCursor_of_end found]
  · rw [ofCursor_of_next (h.trans found), ofCursor_of_next found]

theorem exists_next_of_done {cursor : Cursor} (read : ofCursor cursor = .done) :
    ∃ after, cursor.next = (.ok none, after) := by
  rcases found : cursor.next with ⟨e | _ | t, after⟩
  · rw [ofCursor_of_error found] at read
    cases read
  · exact ⟨after, rfl⟩
  · rw [ofCursor_of_next found] at read
    cases read

theorem exists_next_of_token {cursor : Cursor} {t : Lexeme} {s : TokenStream}
    (read : ofCursor cursor = .token t s) :
    ∃ after, cursor.next = (.ok (some t), after) ∧ ofCursor after = s := by
  rcases found : cursor.next with ⟨e | _ | t', after⟩
  · rw [ofCursor_of_error found] at read
    cases read
  · rw [ofCursor_of_end found] at read
    cases read
  · rw [ofCursor_of_next found] at read
    cases read
    exact ⟨after, rfl, rfl⟩

end TokenStream

/-! Characters -/

namespace Token

/-- The character is neither skipped nor starts something that is. -/
def isSolid (c : Char) : Bool := !isLineBreak c && !isBlank c && c != ';'

theorem isSolid_of_isAlphanum {c : Char} (h : c.isAlphanum) : isSolid c := by
  have range := Text.toNat_of_isAlphanum h
  have noComment : c ≠ ';' := by
    rintro rfl
    cases h
  simp [isSolid, isLineBreak, isBlank, noComment]
  omega

theorem isSolid_of_punctuation {c : Char} {t : Token} (h : punctuation? c = some t) :
    isSolid c := by
  unfold punctuation? at h
  split at h <;> first | decide | cases h

theorem punctuation?_of_isAlphanum {c : Char} (h : c.isAlphanum) : punctuation? c = none := by
  unfold punctuation?
  split <;> first | cases h | rfl

theorem punctuation?_of_le {c : Char} (h : 0xC0 ≤ c.toNat) : punctuation? c = none := by
  unfold punctuation?
  split <;> first | exact absurd h (by decide) | rfl

theorem isWordChar_of_isAlphanum {c : Char} (h : c.isAlphanum) : isWordChar c := by
  simp [isWordChar, h]

theorem not_endsWord_of_isWordChar {c : Char} (h : isWordChar c) : endsWord c = false := by
  simp only [isWordChar, Bool.or_eq_true, beq_iff_eq, Bool.and_eq_true, decide_eq_true_eq,
    Bool.not_eq_true'] at h
  rcases h with (rfl | alphanum) | ⟨⟨high, noBlank⟩, noBreak⟩
  · decide
  · have solid := isSolid_of_isAlphanum alphanum
    simp only [isSolid, Bool.and_eq_true, Bool.not_eq_true', bne_iff_ne] at solid
    simp [endsWord, solid, punctuation?_of_isAlphanum alphanum]
  · have noComment : c ≠ ';' := by
      rintro rfl
      exact absurd high (by decide)
    simp [endsWord, noBlank, noBreak, noComment, punctuation?_of_le high]

theorem not_isWordChar_of_endsWord {c : Char} (h : endsWord c) : isWordChar c = false := by
  cases word : isWordChar c with
  | false => rfl
  | true =>
      rw [not_endsWord_of_isWordChar word] at h
      cases h

theorem isSolid_of_not_endsWord {c : Char} (goesOn : endsWord c = false) : isSolid c := by
  simp only [endsWord, Bool.or_eq_false_iff, beq_eq_false_iff_ne] at goesOn
  simp [isSolid, goesOn]

theorem isSolid_of_isWordChar {c : Char} (word : isWordChar c) : isSolid c :=
  isSolid_of_not_endsWord (not_endsWord_of_isWordChar word)

theorem punctuation?_of_not_endsWord {c : Char} (goesOn : endsWord c = false) :
    punctuation? c = none := by
  simp only [endsWord, Bool.or_eq_false_iff] at goesOn
  exact Option.isSome_eq_false_iff.mp goesOn.1.2 |> Option.isNone_iff_eq_none.mp

end Token

theorem Cursor.skipFrom_of_isSolid {c : Char} (solid : Token.isSolid c) (cs : List Char)
    (p : Position) : skipFrom false p (c :: cs) = ⟨c :: cs, p⟩ := by
  simp only [Token.isSolid, Bool.and_eq_true, Bool.not_eq_true', bne_iff_ne] at solid
  obtain ⟨⟨noBreak, noBlank⟩, noComment⟩ := solid
  unfold skipFrom
  split
  · rename_i h
    cases h
  · rename_i h
    cases h
    cases noBreak
  · rename_i h
    cases h
    cases noBreak
  · rename_i h
    cases h
    simp [noBreak, noBlank, noComment]

/-! Pieces of text -/

namespace Assembly

/-- No word goes on at the characters. -/
def StopsWord (cs : List Char) : Prop := ∀ c ∈ cs.head?, Token.endsWord c

/-- The characters read as the tokens wherever they stand, unless a word goes on after them. -/
def Lexes (cs : List Char) (tokens : List Token) : Prop :=
  ∀ rest p, StopsWord rest → ∃ p',
    (TokenStream.ofCursor ⟨cs ++ rest, p⟩).Begins tokens (TokenStream.ofCursor ⟨rest, p'⟩)

variable {cs xs ys : List Char} {c : Char} {t : Token} {ts us : List Token}

theorem StopsWord.nil : StopsWord [] := by rintro c ⟨⟩

theorem StopsWord.append (first : StopsWord xs) (second : StopsWord ys) : StopsWord (xs ++ ys) := by
  cases xs with
  | nil => exact second
  | cons => exact first

theorem StopsWord.blank : StopsWord (' ' :: cs) := by
  rintro c ⟨⟩
  decide

theorem StopsWord.punctuation (mark : Token.punctuation? c = some t) : StopsWord (c :: cs) := by
  rintro c ⟨⟩
  simp [Token.endsWord, mark]

theorem Lexes.nil : Lexes [] [] := fun _ p _ => ⟨p, .nil⟩

theorem Lexes.append (first : Lexes xs ts) (second : Lexes ys us) (stops : StopsWord ys) :
    Lexes (xs ++ ys) (ts ++ us) := by
  intro rest p ends
  obtain ⟨p', spelled⟩ := first (ys ++ rest) p (stops.append ends)
  obtain ⟨p'', spelled'⟩ := second rest p' ends
  rw [List.append_assoc]
  exact ⟨p'', TokenStream.begins_append_iff.mpr ⟨_, spelled, spelled'⟩⟩

theorem Lexes.blank (follows : Lexes cs ts) : Lexes (' ' :: cs) ts := by
  intro rest p ends
  obtain ⟨p', spelled⟩ := follows rest (Cursor.along p 1) ends
  have skipped : Cursor.next ⟨' ' :: (cs ++ rest), p⟩ =
      Cursor.next ⟨cs ++ rest, Cursor.along p 1⟩ := by
    simp only [Cursor.next, Cursor.skip]
    rfl
  refine ⟨p', ?_⟩
  rw [List.cons_append, TokenStream.ofCursor_congr skipped]
  exact spelled

theorem Lexes.punctuation (mark : Token.punctuation? c = some t) (follows : Lexes cs ts) :
    Lexes (c :: cs) (t :: ts) := by
  intro rest p ends
  obtain ⟨p', spelled⟩ := follows rest (Cursor.along p 1) ends
  have solid := Token.isSolid_of_punctuation mark
  have read : Cursor.next ⟨c :: (cs ++ rest), p⟩ =
      (.ok (some ⟨t, p⟩), ⟨cs ++ rest, Cursor.along p 1⟩) := by
    simp only [Cursor.next, Cursor.skip, Cursor.skipFrom_of_isSolid solid, mark]
  refine ⟨p', ?_⟩
  rw [List.cons_append, TokenStream.ofCursor_of_next read]
  exact .cons rfl spelled

/-- A word that does not go on is read as one token. -/
theorem next_of_word {rest : List Char} (words : ∀ c ∈ cs, Token.isWordChar c) (nonempty : cs ≠ [])
    (token : Token.ofWord cs = .ok t) (stops : StopsWord rest) (p : Position) :
    Cursor.next ⟨cs ++ rest, p⟩ = (.ok (some ⟨t, p⟩), ⟨rest, Cursor.along p cs.length⟩) := by
  cases cs with
  | nil => exact absurd rfl nonempty
  | cons c cs =>
      obtain ⟨first, others⟩ := List.forall_mem_cons.mp words
      have stop : rest.takeWhile Token.isWordChar = [] ∧ rest.dropWhile Token.isWordChar = rest ∧
          rest.head?.filter (!Token.endsWord ·) = none := by
        cases rest with
        | nil => exact ⟨rfl, rfl, rfl⟩
        | cons d rest =>
            have ends : Token.endsWord d := stops d rfl
            simp [Token.not_isWordChar_of_endsWord ends, ends]
      obtain ⟨no_more, left, clean⟩ := stop
      have solid := Token.isSolid_of_isWordChar first
      have plain := Token.punctuation?_of_not_endsWord (Token.not_endsWord_of_isWordChar first)
      simp only [List.cons_append, Cursor.next, Cursor.skip, Cursor.skipFrom_of_isSolid solid,
        Cursor.word, plain, first, List.takeWhile_append_of_pos others,
        List.dropWhile_append_of_pos others, no_more, left, clean, List.append_nil, token]
      simp

theorem Lexes.word (alphanum : ∀ c ∈ cs, c.isAlphanum) (nonempty : cs ≠ [])
    (token : Token.ofWord cs = .ok t) : Lexes cs [t] := by
  intro rest p ends
  have words : ∀ c ∈ cs, Token.isWordChar c := fun c member =>
    Token.isWordChar_of_isAlphanum (alphanum c member)
  refine ⟨Cursor.along p cs.length, ?_⟩
  rw [TokenStream.ofCursor_of_next (next_of_word words nonempty token ends p)]
  exact .cons rfl .nil

/-- A text that is one piece reads as its tokens and nothing else. -/
theorem begins_of_lexes {s : String} (lexes : Lexes s.toList ts) :
    (TokenStream.ofSource s).Begins ts .done := by
  obtain ⟨p, spelled⟩ := lexes [] {} .nil
  rw [List.append_nil] at spelled
  have ended : TokenStream.ofCursor ⟨[], p⟩ = .done := TokenStream.ofCursor_of_end rfl
  rwa [ended] at spelled

end Assembly

end ReducedX86
