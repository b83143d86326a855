import Mathlib.Data.List.DropRight
import ReducedX86.Proofs.Assembly.Scanning

/-!
Tokens and positions account for every character of a text.

A text that is read to its end is made of gaps and tokens. The tokens stand one behind the other,
each with the position that follows from the characters before it; what no token covers is a
separator or belongs to a comment.
-/
namespace ReducedX86

/-! Lines and columns -/

namespace Cursor

/-- The number of line breaks; break characters pair up from the left. -/
def breaks : List Char → Nat
  | [] => 0
  | '\n' :: '\r' :: rest => breaks rest + 1
  | '\r' :: '\n' :: rest => breaks rest + 1
  | c :: rest => if Token.isLineBreak c then breaks rest + 1 else breaks rest

/-- The characters after the last line break. -/
def lastLine (cs : List Char) : List Char := cs.rtakeWhile (!Token.isLineBreak ·)

theorem lastLine_of_unbroken {cs : List Char} (unbroken : cs.any Token.isLineBreak = false) :
    lastLine cs = cs := by
  rw [List.any_eq_false] at unbroken
  exact List.rtakeWhile_eq_self_iff.mpr fun c member => by simp [unbroken c member]

theorem lastLine_cons {c : Char} {rest : List Char}
    (broken : Token.isLineBreak c ∨ rest.any Token.isLineBreak) :
    lastLine (c :: rest) = lastLine rest := by
  induction rest using List.reverseRecOn with
  | nil =>
      have first : Token.isLineBreak c := broken.resolve_right (by simp)
      simp [lastLine, List.rtakeWhile, first]
  | append_singleton xs x ih =>
      rw [lastLine, lastLine, ← List.cons_append, List.rtakeWhile_concat, List.rtakeWhile_concat]
      split
      · rename_i unbroken
        have earlier : Token.isLineBreak c ∨ xs.any Token.isLineBreak := by
          simpa [(Bool.not_eq_true' _).mp unbroken] using broken
        exact congrArg (· ++ [x]) (ih earlier)
      · rfl

/-- The column after a line break is the length of what is left of the line. -/
theorem column_below (cs : List Char) :
    (if cs.any Token.isLineBreak then (lastLine cs).length else 0 + cs.length) =
      (lastLine cs).length := by
  cases unbroken : cs.any Token.isLineBreak with
  | true => rfl
  | false => simp [lastLine_of_unbroken unbroken]

theorem past_eq (p : Position) (cs : List Char) :
    past p cs = ⟨p.line + breaks cs,
      if cs.any Token.isLineBreak then (lastLine cs).length else p.column + cs.length,
      p.index + cs.length⟩ := by
  fun_induction past p cs with
  | case1 p => rfl
  | case2 p rest ih | case3 p rest ih =>
      rw [ih, below, column_below, lastLine_cons (.inl (by decide)), lastLine_cons (.inl (by decide)),
        List.any_cons, breaks]
      simp only [List.length_cons, Position.mk.injEq]
      refine ⟨by omega, ?_, by omega⟩
      rfl
  | case4 p c rest noPair noPair' broken ih =>
      have count : breaks (c :: rest) = breaks rest + 1 := by
        rw [breaks, if_pos broken]
        · exact noPair
        · exact noPair'
      rw [ih, below, column_below, lastLine_cons (.inl broken), count, List.any_cons, broken]
      simp only [List.length_cons, Position.mk.injEq]
      refine ⟨by omega, ?_, by omega⟩
      rfl
  | case5 p c rest noPair noPair' unbroken ih =>
      have count : breaks (c :: rest) = breaks rest := by
        rw [breaks, if_neg unbroken]
        · exact noPair
        · exact noPair'
      rw [ih, along, count, List.any_cons, Bool.eq_false_iff.mpr unbroken, Bool.false_or]
      cases broken : rest.any Token.isLineBreak with
      | true =>
          rw [lastLine_cons (.inr broken)]
          simp only [if_true, List.length_cons, Position.mk.injEq, true_and]
          omega
      | false =>
          simp only [Bool.false_eq_true, if_false, List.length_cons, Position.mk.injEq, true_and]
          omega

/-- The position after characters counts what is before it. -/
theorem past_start (cs : List Char) :
    past {} cs = ⟨breaks cs, (lastLine cs).length, cs.length⟩ := by
  have column := column_below cs
  rw [past_eq, column, Nat.zero_add, Nat.zero_add]

end Cursor

/-! Whole texts -/

/-- A token and the characters it was read from. -/
structure Span where
  lexeme : Lexeme
  text : List Char
  deriving DecidableEq, Repr, Inhabited

namespace Span

def start (s : Span) : Nat := s.lexeme.position.index

/-- The index of the character after the token. -/
def stop (s : Span) : Nat := s.start + s.text.length

def Covers (s : Span) (i : Nat) : Prop := s.start ≤ i ∧ i < s.stop

/-- The token stands in the source where its position says. -/
def Fits (source : List Char) (s : Span) : Prop :=
  ∃ before after, source = before ++ s.text ++ after ∧
    s.lexeme.position =
      ⟨Cursor.breaks before, (Cursor.lastLine before).length, before.length⟩ ∧
    s.lexeme.token.Stands before after s.text

end Span

/-- The spans account for the source from the index `first` on. -/
structure Accounts (source : List Char) (first : Nat) (spans : List Span) : Prop where
  fits : ∀ s ∈ spans, s.Fits source
  later : ∀ s ∈ spans, first ≤ s.start
  apart : spans.Pairwise fun s s' => s.stop ≤ s'.start
  covered_iff : ∀ before c after, source = before ++ c :: after → first ≤ before.length →
    ((∃ s ∈ spans, s.Covers before.length) ↔
      ¬ Token.isSeparator c ∧ ¬ Cursor.EndsInComment (before ++ [c]))

/-- What a reader leaves behind: no comment and no line break, and no word that goes on. -/
structure Seam (before rest : List Char) : Prop where
  closed : Cursor.commented false before = false
  sameLine : ∀ c ∈ before.getLast?, Token.isLineBreak c = false
  cut : ∀ c ∈ before.getLast?, Token.isWordChar c → ∀ d ∈ rest.head?, Token.isWordChar d = false

theorem Seam.nil (rest : List Char) : Seam [] rest where
  closed := rfl
  sameLine := by rintro c ⟨⟩
  cut := by rintro c ⟨⟩

/-- A character in the middle of three pieces is somewhere in the middle one. -/
theorem exists_split_of_append {xs ys zs before after : List Char} {c : Char}
    (same : xs ++ ys ++ zs = before ++ c :: after) (starts : xs.length ≤ before.length)
    (stops : before.length < (xs ++ ys).length) :
    ∃ us vs, before = xs ++ us ∧ ys = us ++ c :: vs := by
  have whole : before ++ c :: after = xs ++ (ys ++ zs) := by rw [← same, List.append_assoc]
  have earlier : xs <+: before ++ c :: after := ⟨ys ++ zs, whole.symm⟩
  obtain ⟨us, rfl⟩ := List.prefix_of_prefix_length_le earlier (List.prefix_append _ _) starts
  have middle : us ++ c :: after = ys ++ zs := by
    rw [List.append_assoc] at whole
    exact List.append_cancel_left whole
  have within : us ++ [c] <+: ys ++ zs := ⟨after, by rw [← middle]; simp⟩
  have short : (us ++ [c]).length ≤ ys.length := by
    simp only [List.length_append, List.length_singleton] at stops ⊢
    omega
  obtain ⟨vs, split⟩ := List.prefix_of_prefix_length_le within (List.prefix_append ys zs) short
  exact ⟨us, vs, rfl, by rw [← split]; simp⟩

section Steps

variable {before gap rest after text : List Char} {t : Token} {spans : List Span}

/-- What is passed over is accounted for without a token. -/
theorem Seam.uncovered (seam : Seam before rest) (passed : Cursor.IsGap false gap)
    {xs ys : List Char} {c : Char} (split : gap = xs ++ c :: ys) :
    ¬ (¬ Token.isSeparator c ∧ ¬ Cursor.EndsInComment (before ++ xs ++ [c])) := by
  rintro ⟨separates, comment⟩
  rcases passed xs c ys split with here | inside
  · exact separates here
  · refine comment ((Cursor.commented_iff _).mp ?_)
    rw [List.append_assoc, Cursor.commented_append, seam.closed]
    exact inside

/-- The characters of a token are neither separators nor in comments. -/
theorem Seam.covered (seam : Seam before rest) (closed : Cursor.commented false gap = false)
    {xs ys : List Char} {c : Char} (solid : ∀ d ∈ xs ++ c :: ys, Token.isSolid d) :
    ¬ Token.isSeparator c ∧ ¬ Cursor.EndsInComment (before ++ gap ++ xs ++ [c]) := by
  have separates := (Token.not_isSeparator_of_isSolid (solid c (by simp))).1
  have uncommented : Cursor.commented false (before ++ gap ++ xs ++ [c]) = false := by
    rw [List.append_assoc _ xs, Cursor.commented_append, Cursor.commented_append false before,
      seam.closed, closed]
    rw [List.append_cons] at solid
    exact Cursor.commented_of_isSolid fun d member => solid d (List.mem_append_left ys member)
  rw [← Cursor.commented_iff, uncommented, separates]
  exact ⟨Bool.false_ne_true, Bool.false_ne_true⟩

/-- A gap in which no comment is open ends a word. -/
theorem cut_after_gap (cut : ∀ b ∈ before.getLast?, Token.isWordChar b →
      ∀ d ∈ (gap ++ rest).head?, Token.isWordChar d = false)
    (passed : Cursor.IsGap false gap) (closed : Cursor.commented false gap = false) :
    ∀ b ∈ (before ++ gap).getLast?, Token.isWordChar b →
      ∀ d ∈ rest.head?, Token.isWordChar d = false := by
  rcases gap.eq_nil_or_concat with rfl | ⟨xs, x, rfl⟩
  · rw [List.append_nil]
    exact cut
  · rw [List.concat_eq_append] at passed closed ⊢
    intro b last word
    rw [← List.append_assoc, List.getLast?_concat] at last
    cases last
    rcases passed xs x [] rfl with separates | inside
    · rw [Token.not_isWordChar_of_endsWord (Token.endsWord_of_isSeparator separates)] at word
      cases word
    · rw [closed] at inside
      cases inside

theorem Seam.after_token (seam : Seam before rest) (closed : Cursor.commented false gap = false)
    (stands : t.Stands (before ++ gap) after text) : Seam (before ++ gap ++ text) after where
  closed := by
    rw [Cursor.commented_append, Cursor.commented_append, seam.closed, closed]
    exact Cursor.commented_of_isSolid stands.solid
  sameLine := by
    intro c last
    rw [List.getLast?_append_of_ne_nil _ stands.nonempty] at last
    exact Token.not_isLineBreak_of_isSolid (stands.solid c (List.mem_of_getLast? last))
  cut := by
    rw [List.getLast?_append_of_ne_nil _ stands.nonempty]
    exact stands.ends

theorem Accounts.nil (seam : Seam before gap) (passed : Cursor.IsGap false gap) :
    Accounts (before ++ gap) before.length [] where
  fits := List.forall_mem_nil _
  later := List.forall_mem_nil _
  apart := .nil
  covered_iff := by
    intro xs c ys split starts
    have stops : xs.length < (before ++ gap).length := by
      rw [split, List.length_append, List.length_cons]
      omega
    rw [← List.append_nil (before ++ gap)] at split
    obtain ⟨us, vs, rfl, here⟩ := exists_split_of_append split starts stops
    simp only [List.not_mem_nil, false_and, exists_false, false_iff]
    exact seam.uncovered passed here

/-- A gap and a token are accounted for in front of the rest. -/
theorem Accounts.cons {t : Lexeme} (seam : Seam before rest) (passed : Cursor.IsGap false gap)
    (closed : Cursor.commented false gap = false)
    (place : t.position = Cursor.past {} (before ++ gap))
    (stands : t.token.Stands (before ++ gap) after text)
    (accounts : Accounts (before ++ gap ++ text ++ after) (before ++ gap ++ text).length spans) :
    Accounts (before ++ gap ++ text ++ after) before.length (⟨t, text⟩ :: spans) := by
  rw [Cursor.past_start] at place
  have start : Span.start ⟨t, text⟩ = (before ++ gap).length := congrArg Position.index place
  have stop : Span.stop ⟨t, text⟩ = (before ++ gap ++ text).length := by
    rw [Span.stop, start, ← List.length_append]
  have further (s : Span) (member : s ∈ spans) : Span.stop ⟨t, text⟩ ≤ s.start := by
    rw [stop]
    exact accounts.later s member
  have first : before.length ≤ Span.start ⟨t, text⟩ := by
    rw [start, List.length_append]
    exact Nat.le_add_right _ _
  have next : Span.start ⟨t, text⟩ ≤ Span.stop ⟨t, text⟩ := Nat.le_add_right _ _
  refine ⟨?_, ?_, .cons further accounts.apart, ?_⟩
  · exact List.forall_mem_cons.mpr ⟨⟨before ++ gap, after, rfl, place, stands⟩, accounts.fits⟩
  · exact List.forall_mem_cons.mpr
      ⟨first, fun s member => first.trans (next.trans (further s member))⟩
  · intro xs c ys split starts
    rw [List.exists_mem_cons_iff]
    rcases Nat.lt_or_ge xs.length (before ++ gap).length with inGap | afterGap
    · rw [List.append_assoc _ text] at split
      rw [← start] at inGap
      obtain ⟨us, vs, rfl, here⟩ := exists_split_of_append split starts (start ▸ inGap)
      refine iff_of_false ?_ (seam.uncovered passed here)
      rintro (covers | ⟨s, member, covers⟩)
      · exact Nat.not_le_of_lt inGap covers.1
      · exact Nat.not_le_of_lt inGap ((next.trans (further s member)).trans covers.1)
    · rcases Nat.lt_or_ge xs.length (before ++ gap ++ text).length with inText | afterText
      · obtain ⟨us, vs, rfl, here⟩ := exists_split_of_append split afterGap inText
        exact iff_of_true (.inl ⟨start.trans_le afterGap, inText.trans_eq stop.symm⟩)
          (seam.covered closed (here ▸ stands.solid))
      · rw [← accounts.covered_iff xs c ys split afterText]
        exact or_iff_right fun covers => Nat.not_lt_of_le (stop.trans_le afterText) covers.2

end Steps

/-- The stream of some tokens and nothing else. -/
def TokenStream.ofList : List Lexeme → TokenStream
  | [] => .done
  | t :: rest => .token t (ofList rest)

theorem exists_accounts {lexemes : List Lexeme} {before rest : List Char} (seam : Seam before rest)
    (read : TokenStream.ofCursor ⟨rest, Cursor.past {} before⟩ = .ofList lexemes) :
    ∃ spans : List Span, spans.map Span.lexeme = lexemes ∧
      Accounts (before ++ rest) before.length spans := by
  induction lexemes generalizing before rest with
  | nil =>
      obtain ⟨after, found⟩ := TokenStream.exists_next_of_done read
      have passed := Cursor.isGap_separate false rest
      have whole := Cursor.separate_append false rest
      rw [Cursor.left_eq_nil_of_next rfl found, List.append_nil] at whole
      rw [whole] at passed
      exact ⟨[], rfl, .nil seam passed⟩
  | cons t lexemes ih =>
      obtain ⟨⟨rest', p⟩, found, follows⟩ := TokenStream.exists_next_of_token read
      rcases separated : Cursor.separate false rest with ⟨gap, left⟩
      obtain ⟨whole, passed, stops⟩ := Cursor.cut_of_separate separated
      obtain ⟨scanned, place, next⟩ := Cursor.scan_of_next separated found
      obtain ⟨text, rfl, stands⟩ := Token.stands_of_scan scanned
      have closed : Cursor.commented false gap = false := by
        have nonempty := (stands [] (by rintro b ⟨⟩)).nonempty
        obtain ⟨d, tail, rfl⟩ := List.exists_cons_of_ne_nil nonempty
        exact (stops d rfl).2
      rw [← whole] at seam ⊢
      have stands := stands (before ++ gap) (cut_after_gap seam.cut passed closed)
      have unbroken : ∀ c ∈ text, Token.isLineBreak c = false := fun c member =>
        Token.not_isLineBreak_of_isSolid (stands.solid c member)
      rw [← Cursor.past_append (.inl seam.sameLine)] at place
      rw [List.length_append, Nat.add_sub_cancel, place, ← Cursor.past_unbroken unbroken,
        ← Cursor.past_append (.inr fun c first => unbroken c (List.mem_of_head? first))] at next
      simp only at next follows
      rw [next] at follows
      obtain ⟨spans, same, accounts⟩ := ih (seam.after_token closed stands) follows
      refine ⟨⟨t, text⟩ :: spans, congrArg (t :: ·) same, ?_⟩
      rw [← List.append_assoc, ← List.append_assoc]
      exact .cons seam passed closed place stands accounts

/-- Whenever a text is read to its end, the tokens fit it, one behind the other; each character that
they do not cover is a separator or belongs to a comment. -/
theorem TokenStream.accounts_of_ofSource {source : String} {lexemes : List Lexeme}
    (read : ofSource source = .ofList lexemes) :
    ∃ spans : List Span, spans.map Span.lexeme = lexemes ∧ Accounts source.toList 0 spans :=
  exists_accounts (.nil source.toList) read

theorem TokenStream.accounts_of_ofSource_return :
    let source := " again:\n\r;ret\r\nret -2;"
    let lexemes : List Lexeme := [⟨.identifier "again", ⟨0, 1, 1⟩⟩, ⟨.colon, ⟨0, 6, 6⟩⟩,
      ⟨.operator (.control .ret), ⟨2, 0, 15⟩⟩, ⟨.number 0xFFFFFFFE, ⟨2, 4, 19⟩⟩]
    ofSource source = .ofList lexemes ∧
      ∃ spans : List Span, spans.map Span.lexeme = lexemes ∧ Accounts source.toList 0 spans := by
  intro source lexemes
  have read : ofSource source = .ofList lexemes := by decide +kernel
  exact ⟨read, accounts_of_ofSource read⟩

end ReducedX86
