import ReducedX86.Proofs.Assembly.Lookahead

/-!
How a lexer advances.

Whatever a call finds, it takes a gap from the text and then characters that belong together. So the
cursor is always where its position says, not within a word, and behind each token that was handed
out or is seen ahead. From one token that is handed out to the next, it moves on.
-/
namespace ReducedX86

namespace Cursor

/-- The characters are taken from the text at a position, and no part of a word. -/
structure Takes (left : List Char) (p : Position) (after : Cursor) (text : List Char) : Prop where
  split : left = text ++ after.rest
  position : after.position = along p text.length
  solid : ∀ c ∈ text, Token.isSolid c
  cut : ∀ c ∈ text.getLast?, Token.isWordChar c →
    ∀ d ∈ after.rest.head?, Token.isWordChar d = false

theorem takes_nil (left : List Char) (p : Position) : Takes left p ⟨left, p⟩ [] :=
  ⟨rfl, rfl, List.forall_mem_nil _, by rintro c ⟨⟩⟩

/-- Behind the gap a call takes a token, a word that cannot be read, or nothing. -/
theorem exists_takes {cursor : Cursor} {gap left : List Char}
    (separated : separate false cursor.rest = (gap, left)) :
    ∃ text, Takes left (past cursor.position gap) cursor.next.2 text := by
  have skipped : cursor.skip = ⟨left, past cursor.position gap⟩ := by
    rw [skip, skipFrom_eq, separated]
  cases left with
  | nil =>
      rw [next, skipped]
      exact ⟨[], takes_nil _ _⟩
  | cons c rest =>
      cases mark : Token.punctuation? c with
      | some t =>
          have taken : cursor.next.2 = ⟨rest, along (past cursor.position gap) 1⟩ := by
            simp only [next, skipped, mark]
          have ends : Token.endsWord c := by simp [Token.endsWord, mark]
          have noWord := Token.not_isWordChar_of_endsWord ends
          rw [taken]
          have solid : ∀ d ∈ [c], Token.isSolid d :=
            List.forall_mem_singleton.mpr (Token.isSolid_of_punctuation mark)
          refine ⟨[c], rfl, rfl, solid, ?_⟩
          rintro d last word
          obtain rfl : c = d := Option.some.inj last
          rw [noWord] at word
          cases word
      | none =>
          by_cases starts : (c == '-' || Token.isWordChar c) = true
          · have taken : cursor.next.2 = (word c rest (past cursor.position gap)).2 := by
              simp only [next, skipped, mark, if_pos starts]
              split
              · rfl
              · split <;> rfl
            have first : Token.isSolid c := by
              rcases Bool.or_eq_true_iff.mp starts with minus | letter
              · rw [beq_iff_eq.mp minus]
                decide
              · exact Token.isSolid_of_isWordChar letter
            have later : ∀ d ∈ rest.takeWhile Token.isWordChar, Token.isSolid d := fun d member =>
              Token.isSolid_of_isWordChar (List.mem_takeWhile_imp member)
            have whole : c :: rest =
                c :: rest.takeWhile Token.isWordChar ++ rest.dropWhile Token.isWordChar :=
              congrArg (c :: ·) List.takeWhile_append_dropWhile.symm
            rw [taken]
            exact ⟨c :: rest.takeWhile Token.isWordChar, whole, rfl,
              List.forall_mem_cons.mpr ⟨first, later⟩,
              fun _ _ _ => Token.head?_dropWhile_isWordChar rest⟩
          · simp only [next, skipped, mark, if_neg starts]
            exact ⟨[], takes_nil _ _⟩

/-- The cursor is behind the characters, neither within a word nor within a line break. -/
structure Behind (before : List Char) (cursor : Cursor) : Prop where
  position : cursor.position = past {} before
  cut : ∀ c ∈ before.getLast?, Token.isWordChar c →
    ∀ d ∈ cursor.rest.head?, Token.isWordChar d = false
  seam : (∀ c ∈ before.getLast?, Token.isLineBreak c = false) ∨
    ∀ c ∈ cursor.rest.head?, Token.isLineBreak c = false

variable {cursor : Cursor} {before : List Char}

theorem Behind.index (behind : cursor.Behind before) : cursor.position.index = before.length := by
  rw [behind.position, past_start]

theorem Behind.past_gap (behind : cursor.Behind before) {gap left : List Char}
    (whole : gap ++ left = cursor.rest) : past cursor.position gap = past {} (before ++ gap) := by
  rw [behind.position, past_append]
  refine behind.seam.imp_right fun unbroken c first => ?_
  cases gap with
  | nil => cases first
  | cons d gap =>
      rw [← whole] at unbroken
      exact unbroken c first

/-- A call leaves the cursor behind what it takes. A token that it finds stands there. -/
theorem Behind.next (behind : cursor.Behind before) :
    ∃ gap text, cursor.rest = gap ++ text ++ cursor.next.2.rest ∧
      cursor.next.2.Behind (before ++ gap ++ text) ∧
      ∀ t, cursor.next.1 = .ok (some t) →
        text ≠ [] ∧ Span.Fits (before ++ cursor.rest) ⟨t, text⟩ ∧
          Span.stop ⟨t, text⟩ = (before ++ gap ++ text).length := by
  rcases separated : separate false cursor.rest with ⟨gap, left⟩
  obtain ⟨whole, passed, stops⟩ := cut_of_separate separated
  have cut : ∀ b ∈ (before ++ gap).getLast?, Token.isWordChar b →
      ∀ d ∈ left.head?, Token.isWordChar d = false := by
    cases left with
    | nil => rintro b - - d ⟨⟩
    | cons c rest =>
        have cut := behind.cut
        rw [← whole] at cut
        exact cut_after_gap cut passed (stops c rfl).2
  have start := behind.past_gap whole
  obtain ⟨text, takes⟩ := exists_takes separated
  rw [start] at takes
  have unbroken : ∀ c ∈ text, Token.isLineBreak c = false := fun c member =>
    Token.not_isLineBreak_of_isSolid (takes.solid c member)
  have position : cursor.next.2.position = past {} (before ++ gap ++ text) := by
    rw [takes.position, ← past_unbroken unbroken, ← past_append]
    exact .inr fun c first => unbroken c (List.mem_of_head? first)
  refine ⟨gap, text, ?_, ?_, fun t found => ?_⟩
  · rw [← whole, takes.split, List.append_assoc]
  · rcases text.eq_nil_or_concat with rfl | ⟨xs, x, rfl⟩
    · have stays : left = cursor.next.2.rest := takes.split
      rw [List.append_nil] at position ⊢
      refine ⟨position, stays ▸ cut, .inr fun c first => ?_⟩
      exact Token.not_isLineBreak_of_isSolid (stops c (stays ▸ first)).1
    · rw [List.concat_eq_append] at takes unbroken position ⊢
      have last (d : Char) (here : d ∈ (before ++ gap ++ (xs ++ [x])).getLast?) :
          d ∈ (xs ++ [x]).getLast? := by
        rwa [List.getLast?_append_of_ne_nil _ (by simp)] at here
      exact ⟨position, fun d here => takes.cut d (last d here),
        .inl fun d here => unbroken d (List.mem_of_getLast? (last d here))⟩
  · obtain ⟨scanned, place, -⟩ := scan_of_next separated (Prod.ext found rfl)
    obtain ⟨text', split, stands⟩ := Token.stands_of_scan scanned
    obtain rfl : text' = text := List.append_cancel_right (split.symm.trans takes.split)
    have stands := stands (before ++ gap) cut
    rw [start, past_start] at place
    refine ⟨stands.nonempty, ⟨before ++ gap, cursor.next.2.rest, ?_, place, stands⟩, ?_⟩
    · rw [← whole, takes.split]
      simp only [List.append_assoc]
    · rw [Span.stop, Span.start, place, ← List.length_append]

/-- A call does not move back, and on behind a token. -/
theorem Behind.index_next (behind : cursor.Behind before) :
    cursor.position.index ≤ cursor.next.2.position.index ∧
      ∀ t, cursor.next.1 = .ok (some t) → cursor.position.index < cursor.next.2.position.index := by
  obtain ⟨gap, text, -, moved, token⟩ := behind.next
  rw [behind.index, moved.index, List.length_append, List.length_append]
  refine ⟨by omega, fun t found => ?_⟩
  have some := List.length_pos_iff.mpr (token t found).1
  omega

end Cursor

namespace Lexer

/-- The tokens that the lexer will hand out. -/
def stream (l : Lexer) : TokenStream :=
  match l.lookahead with
  | some t => .token t (.ofCursor l.cursor)
  | none => .ofCursor l.cursor

/-- How many characters are behind the cursor. -/
def place (l : Lexer) : Nat := l.cursor.position.index

/-- The token stands in the source and ends at the index or before it. -/
def EndsBy (source : List Char) (t : Lexeme) (index : Nat) : Prop :=
  ∃ text : List Char, Span.Fits source ⟨t, text⟩ ∧ Span.stop ⟨t, text⟩ ≤ index

/-- The cursor is in the source, and behind what was seen ahead. -/
structure Within (source : List Char) (l : Lexer) : Prop where
  cursor : ∃ before, source = before ++ l.cursor.rest ∧ l.cursor.Behind before
  ahead {t : Lexeme} (seen : l.lookahead = some t) : EndsBy source t l.place

variable {source : List Char} {l : Lexer} {t : Lexeme}

/-- What reading on from the cursor comes to. -/
theorem Within.read (within : l.Within source) :
    (∃ before, source = before ++ l.cursor.next.2.rest ∧ l.cursor.next.2.Behind before) ∧
      ∀ t, l.cursor.next.1 = .ok (some t) →
        EndsBy source t l.cursor.next.2.position.index := by
  obtain ⟨before, whole, behind⟩ := within.cursor
  obtain ⟨gap, text, split, moved, token⟩ := behind.next
  refine ⟨⟨before ++ gap ++ text, ?_, moved⟩, fun t found => ?_⟩
  · rw [whole, split]
    simp only [List.append_assoc]
  · obtain ⟨-, fits, stop⟩ := token t found
    exact ⟨text, whole ▸ fits, (stop.trans moved.index.symm).le⟩

/-- What a call leaves: what was seen ahead stays or is handed out, or the cursor reads on, and a
token may be kept. -/
inductive Asked (l : Lexer) : Lexer → Prop
  | stays : Asked l l
  | handed {t : Lexeme} (seen : l.lookahead = some t) : Asked l ⟨l.cursor, none⟩
  | read {ahead : Option Lexeme} (found : ∀ t, ahead = some t → l.cursor.next.1 = .ok (some t)) :
      Asked l ⟨l.cursor.next.2, ahead⟩

theorem asked (l : Lexer) (call : Call) : l.Asked (l.ask call).2 := by
  obtain ⟨cursor, _ | t⟩ := l
  · cases call with
    | next => exact .read fun t seen => by cases seen
    | peek =>
        rcases found : cursor.next with ⟨e | t, after⟩
        · have reads : after = cursor.next.2 := by rw [found]
          simp only [Lexer.ask, peek, found]
          rw [reads]
          exact .read fun t seen => by cases seen
        · have reads : after = cursor.next.2 := by rw [found]
          simp only [Lexer.ask, peek, found]
          rw [reads]
          exact .read fun u seen => by rw [found, seen]
  · cases call with
    | next => exact .handed rfl
    | peek => exact .stays

theorem Within.ask (within : l.Within source) (call : Call) : (l.ask call).2.Within source := by
  obtain ⟨moved, token⟩ := within.read
  have left := l.asked call
  generalize (l.ask call).2 = m at left ⊢
  cases left with
  | stays => exact within
  | handed => exact ⟨within.cursor, fun seen => by cases seen⟩
  | read found => exact ⟨moved, fun {t} seen => token t (found t seen)⟩

theorem Within.after (within : l.Within source) (calls : List Call) :
    (l.after calls).Within source := by
  induction calls generalizing l with
  | nil => exact within
  | cons call rest ih => exact ih (within.ask call)

theorem within_ofSource (source : String) : (ofSource source).Within source.toList where
  cursor := ⟨[], rfl, rfl, by rintro c ⟨⟩, .inl (by rintro c ⟨⟩)⟩
  ahead seen := by cases seen

theorem Within.found (within : l.Within source) (found : l.next.1 = .ok (some t)) :
    EndsBy source t l.next.2.place := by
  have token := within.read.2
  obtain ⟨cursor, _ | u⟩ := l
  · exact token t found
  · cases found
    exact within.ahead rfl

/-! Moving on -/

/-- The lexer has come to the index, and past it if a token was seen ahead. -/
def Passed (n : Nat) (l : Lexer) : Prop := n ≤ l.place ∧ (l.lookahead.isSome → n < l.place)

variable {n : Nat}

theorem Within.index_next (within : l.Within source) :
    l.place ≤ l.cursor.next.2.position.index ∧
      ∀ t, l.cursor.next.1 = .ok (some t) → l.place < l.cursor.next.2.position.index := by
  obtain ⟨before, -, behind⟩ := within.cursor
  exact behind.index_next

theorem Passed.ask (passed : l.Passed n) (within : l.Within source) (call : Call) :
    (l.ask call).2.Passed n := by
  obtain ⟨forward, further⟩ := within.index_next
  obtain ⟨reached, beyond⟩ := passed
  have left := l.asked call
  generalize (l.ask call).2 = m at left ⊢
  cases left with
  | stays => exact ⟨reached, beyond⟩
  | handed => exact ⟨reached, fun seen => by cases seen⟩
  | read found =>
      refine ⟨reached.trans forward, fun seen => ?_⟩
      obtain ⟨t, rfl⟩ := Option.isSome_iff_exists.mp seen
      exact Nat.lt_of_le_of_lt reached (further t (found t rfl))

theorem Passed.after (passed : l.Passed n) (within : l.Within source) (calls : List Call) :
    (l.after calls).Passed n := by
  induction calls generalizing l with
  | nil => exact passed
  | cons call rest ih => exact ih (passed.ask within call) (within.ask call)

theorem Passed.lt_of_next (passed : l.Passed n) (within : l.Within source)
    (found : l.next.1 = .ok (some t)) : n < l.next.2.place := by
  have further := within.index_next.2
  obtain ⟨cursor, _ | u⟩ := l
  · exact Nat.lt_of_le_of_lt passed.1 (further t found)
  · exact passed.2 rfl

/-- No token is kept behind one that was handed out. -/
theorem passed_next (l : Lexer) : l.next.2.Passed l.next.2.place := by
  refine ⟨Nat.le_refl _, fun seen => ?_⟩
  obtain ⟨cursor, _ | t⟩ := l <;> cases seen

/-! The tokens to come -/

/-- Handing out a token takes it from the tokens to come. -/
theorem stream_of_next (found : l.next.1 = .ok (some t)) :
    l.stream = .token t l.next.2.stream := by
  obtain ⟨cursor, _ | u⟩ := l
  · exact TokenStream.ofCursor_of_next (Prod.ext found rfl)
  · cases found
    rfl

/-- Looking ahead takes none of them. -/
theorem stream_peek {found : Option Lexeme} (seen : l.peek.1 = .ok found) :
    l.peek.2.stream = l.stream := by
  obtain ⟨cursor, _ | u⟩ := l
  · rcases read : cursor.next with ⟨e | _ | t, after⟩
    · simp only [peek, read] at seen
      cases seen
    · simp only [peek, read, stream, TokenStream.ofCursor_of_end read,
        TokenStream.ofCursor_of_end (Cursor.next_of_end read)]
    · simp only [peek, read, stream, TokenStream.ofCursor_of_next read]
  · rfl

/-- Whatever has been asked of the lexer of a source, handing out a token moves it on. -/
structure Advances (source : String) : Prop where
  reaches {calls : List Call} {t : Lexeme}
      (found : (ofSource source).answer calls .next = .ok (some t)) :
    EndsBy source.toList t ((ofSource source).after (calls ++ [.next])).place
  moves {calls between : List Call} {t : Lexeme}
      (found : (ofSource source).answer (calls ++ .next :: between) .next = .ok (some t)) :
    ((ofSource source).after (calls ++ [.next])).place <
      ((ofSource source).after (calls ++ .next :: between ++ [.next])).place
  takes {calls : List Call} {t : Lexeme}
      (found : (ofSource source).answer calls .next = .ok (some t)) :
    ((ofSource source).after calls).stream =
      .token t ((ofSource source).after (calls ++ [.next])).stream
  keeps {calls : List Call} {ahead : Option Lexeme}
      (seen : (ofSource source).answer calls .peek = .ok ahead) :
    ((ofSource source).after (calls ++ [.peek])).stream = ((ofSource source).after calls).stream

theorem after_append (l : Lexer) (calls more : List Call) :
    l.after (calls ++ more) = (l.after calls).after more :=
  List.foldl_append ..

theorem advances (source : String) : Advances source where
  reaches {calls t} found := by
    rw [after_append]
    exact ((within_ofSource source).after calls).found found
  moves {calls between t} found := by
    have within := (within_ofSource source).after calls
    rw [answer, after_append] at found
    rw [after_append, after_append _ (calls ++ .next :: between), after_append _ calls]
    exact ((passed_next _).after (within.ask .next) between).lt_of_next
      ((within.ask .next).after between) found
  takes {calls t} found := by
    rw [after_append]
    exact stream_of_next found
  keeps {calls ahead} seen := by
    rw [after_append]
    exact stream_peek seen

/-- Whatever the lexer hands out or sees ahead stands in the text. -/
theorem exists_fits_of_answer {source : String} {calls : List Call} {call : Call} {t : Lexeme}
    (found : (ofSource source).answer calls call = .ok (some t)) :
    ∃ text : List Char, Span.Fits source.toList ⟨t, text⟩ := by
  rw [answer_eq] at found
  obtain ⟨text, fits, -⟩ := (advances source).reaches found
  exact ⟨text, fits⟩

end Lexer

end ReducedX86
