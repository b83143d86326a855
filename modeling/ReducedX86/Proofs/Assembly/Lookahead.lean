import ReducedX86.Proofs.Assembly.Accounting

/-!
Looking ahead.

A token that was looked at is kept, and the end of a text stays the end. An error is not kept. It is
found again if the reader stopped at the character that is in the way. But the reader has passed a
word that is no number, and a minus sign that is in the way of a word starts a word of its own. So
looking ahead consumes nothing but such an error, which the next call does not report.
-/
namespace ReducedX86

/-- The next call does not find the error again. -/
def AssemblyErrorKind.isPassing : AssemblyErrorKind → Bool
  | invalidNumber | valueOutOfRange => true
  | invalidCharacter c => c == '-'
  | _ => false

namespace Token

theorem error_of_ofWord {cs : List Char} {kind : AssemblyErrorKind}
    (refused : ofWord cs = .error kind) : kind = .invalidNumber ∨ kind = .valueOutOfRange := by
  unfold ofWord at refused
  split at refused
  · dsimp only at refused
    split at refused
    · split at refused
      · cases refused
      · exact .inl (Except.error.inj refused).symm
      · exact .inr (Except.error.inj refused).symm
    · cases refused
  · cases refused

end Token

namespace Cursor

variable {cursor : Cursor} {e : AssemblyError}

/-- The reader stops at a character that is not passed over. -/
theorem isSolid_of_skip {c : Char} {rest : List Char} {p : Position}
    (stops : cursor.skip = ⟨c :: rest, p⟩) : Token.isSolid c := by
  rw [skip, skipFrom_eq] at stops
  exact (solid_of_left (congrArg Cursor.rest stops)).1

theorem skip_skip (cursor : Cursor) : cursor.skip.skip = cursor.skip := by
  rcases stops : cursor.skip with ⟨_ | ⟨c, rest⟩, p⟩
  · rfl
  · exact skipFrom_of_isSolid (isSolid_of_skip stops) rest p

theorem next_skip (cursor : Cursor) : cursor.skip.next = cursor.next := by
  simp only [next, skip_skip]

theorem index_skip (cursor : Cursor) : cursor.position.index ≤ cursor.skip.position.index := by
  rw [skip, skipFrom_eq, past_eq]
  exact Nat.le_add_right ..

/-- Why no token can be read, and where that leaves the cursor: at a character that is in the way,
where a word may be before it, or behind a word that is no number. -/
inductive Refuses (cursor : Cursor) : AssemblyError → Cursor → Prop
  | here {c : Char} (other : c ≠ '-') :
      Refuses cursor ((AssemblyErrorKind.invalidCharacter c).at cursor.skip.position) cursor.skip
  | inWord {c : Char} {rest : List Char} {p : Position}
      (later : cursor.skip.position.index < p.index) (goesOn : Token.endsWord c = false)
      (noWord : Token.isWordChar c = false) :
      Refuses cursor ((AssemblyErrorKind.invalidCharacter c).at p) ⟨c :: rest, p⟩
  | number {kind : AssemblyErrorKind} {stop : Cursor}
      (ofNumber : kind = .invalidNumber ∨ kind = .valueOutOfRange)
      (later : cursor.skip.position.index < stop.position.index) :
      Refuses cursor (kind.at cursor.skip.position) stop

theorem refuses_of_next {after : Cursor} (refused : cursor.next = (.error e, after)) :
    cursor.Refuses e after := by
  rcases stops : cursor.skip with ⟨_ | ⟨c, rest⟩, p⟩
  · simp only [next, stops] at refused
    cases refused
  · cases mark : Token.punctuation? c with
    | some t =>
        simp only [next, stops, mark] at refused
        cases refused
    | none =>
        by_cases starts : (c == '-' || Token.isWordChar c) = true
        · simp only [next, stops, mark, if_pos starts, word] at refused
          cases stray : (rest.dropWhile Token.isWordChar).head?.filter (!Token.endsWord ·) with
          | some bad =>
              rw [stray] at refused
              cases refused
              obtain ⟨first, goesOn⟩ := Option.filter_eq_some_iff.mp stray
              obtain ⟨left, behind⟩ := List.head?_eq_some_iff.mp first
              have noWord := List.head?_dropWhile_not Token.isWordChar rest
              rw [first] at noWord
              rw [behind]
              refine .inWord ?_ ((Bool.not_eq_true' _).mp goesOn) noWord
              rw [stops]
              exact Nat.lt_add_of_pos_right (Nat.succ_pos _)
          | none =>
              rw [stray] at refused
              cases read : Token.ofWord (c :: rest.takeWhile Token.isWordChar) with
              | ok t =>
                  rw [read] at refused
                  cases refused
              | error kind =>
                  rw [read] at refused
                  cases refused
                  have position : p = cursor.skip.position := by rw [stops]
                  rw [position]
                  refine .number (Token.error_of_ofWord read) ?_
                  exact Nat.lt_add_of_pos_right (Nat.succ_pos _)
        · simp only [next, stops, mark, if_neg starts] at refused
          cases refused
          have other : c ≠ '-' := by
            rintro rfl
            exact starts rfl
          have refusal : cursor.Refuses _ cursor.skip := .here other
          rwa [stops] at refusal

/-- An error is not found before the cursor, and on the cursor no minus sign is in the way. -/
theorem Refuses.position {stop : Cursor} (refuses : cursor.Refuses e stop) :
    ∃ p, e.position = some p ∧ cursor.position.index ≤ p.index ∧
      (e.kind = .invalidCharacter '-' → cursor.position.index < p.index) := by
  have passed := index_skip cursor
  cases refuses with
  | here other =>
      refine ⟨_, rfl, passed, fun minus => ?_⟩
      cases minus
      exact absurd rfl other
  | inWord later =>
      exact ⟨_, rfl, by omega, fun _ => by omega⟩
  | number ofNumber later =>
      refine ⟨_, rfl, passed, fun minus => ?_⟩
      rcases ofNumber with rfl | rfl <;> cases minus

/-- An error at a character that is in the way is found again. -/
theorem next_of_lasting {after : Cursor} (refused : cursor.next = (.error e, after))
    (lasts : e.kind.isPassing = false) : after.next = (.error e, after) := by
  cases refuses_of_next refused with
  | here => rw [next_skip, refused]
  | @inWord c rest p later goesOn noWord =>
      have stays : skip ⟨c :: rest, p⟩ = ⟨c :: rest, p⟩ :=
        skipFrom_of_isSolid (Token.isSolid_of_not_endsWord goesOn) rest p
      have noStart : ¬ (c == '-' || Token.isWordChar c) = true := by
        rw [noWord, Bool.or_false]
        exact Bool.eq_false_iff.mp lasts
      simp only [next, stays, Token.punctuation?_of_not_endsWord goesOn, if_neg noStart]
  | number ofNumber => rcases ofNumber with rfl | rfl <;> cases lasts

/-- Any other error is not found again. -/
theorem next_ne_of_passing {after : Cursor} (refused : cursor.next = (.error e, after))
    (passes : e.kind.isPassing = true) : after.next.1 ≠ .error e := by
  intro again
  obtain ⟨p, position, behind, behind'⟩ := (refuses_of_next (Prod.ext again rfl)).position
  cases refuses_of_next refused with
  | here other => exact other (beq_iff_eq.mp passes)
  | @inWord c rest q later =>
      cases position
      have minus : c = '-' := beq_iff_eq.mp passes
      exact Nat.lt_irrefl _ (behind' (congrArg _ minus))
  | number ofNumber later =>
      cases position
      exact Nat.lt_irrefl _ (Nat.lt_of_lt_of_le later behind)

/-- The end of a text stays the end. -/
theorem next_of_end {after : Cursor} (ended : cursor.next = (.ok none, after)) :
    after.next = (.ok none, after) := by
  have skipped : cursor.skip = ⟨[], cursor.skip.position⟩ := by
    rw [skip, skipFrom_eq, left_eq_nil_of_next rfl ended]
  rw [next, skipped] at ended
  cases ended
  rfl

end Cursor

namespace Lexer

/-- What can be asked of a lexer. -/
inductive Call
  | next
  | peek
  deriving DecidableEq, Repr, Inhabited

abbrev Answer := Except AssemblyError (Option Lexeme)

def ask (l : Lexer) : Call → Answer × Lexer
  | .next => l.next
  | .peek => l.peek

/-- The lexer after some calls. -/
def after (l : Lexer) (calls : List Call) : Lexer := calls.foldl (fun l call => (l.ask call).2) l

/-- What a call is answered after others. -/
def answer (l : Lexer) (calls : List Call) (call : Call) : Answer := ((l.after calls).ask call).1

/-- Whether a call moves the lexer on: to look ahead does so where it meets a passing error. -/
def Call.consumes : Call → Answer → Bool
  | .next, _ => true
  | .peek, .ok _ => false
  | .peek, .error e => e.kind.isPassing

/-- How many of the calls move the lexer on. -/
def consumed (l : Lexer) : List Call → Nat
  | [] => 0
  | call :: rest => (call.consumes (l.ask call).1).toNat + consumed (l.ask call).2 rest

variable {l m : Lexer}

/-- Looking ahead finds what is next. -/
theorem ask_fst (l : Lexer) (call : Call) : (l.ask call).1 = l.next.1 := by
  cases call with
  | next => rfl
  | peek =>
      rw [ask, peek, next]
      cases l.lookahead with
      | some t => rfl
      | none => rcases l.cursor.next with ⟨_ | t, after⟩ <;> rfl

/-- To look ahead at a passing error is to read it. -/
theorem peek_of_consumes (consumes : Call.peek.consumes l.next.1 = true) : l.peek.2 = l.next.2 := by
  obtain ⟨cursor, _ | t⟩ := l
  · rcases found : cursor.next with ⟨e | t, after⟩
    · simp only [peek, next, found]
    · simp only [next, found] at consumes
      cases consumes
  · cases consumes

/-- To look ahead at anything else changes nothing that can be told. -/
theorem next_peek (stays : Call.peek.consumes l.next.1 = false) : l.peek.2.next = l.next := by
  obtain ⟨cursor, _ | t⟩ := l
  · rcases found : cursor.next with ⟨e | _ | t, after⟩
    · simp only [next, found] at stays
      simp only [peek, next, found, Cursor.next_of_lasting found stays]
    · simp only [peek, next, found, Cursor.next_of_end found]
    · simp only [peek, next, found]
  · rfl

theorem next_after_of_next (same : l.next = m.next) (n : Nat) :
    (l.after (List.replicate n .next)).next = (m.after (List.replicate n .next)).next := by
  cases n with
  | zero => exact same
  | succ n =>
      have step : (l.ask .next).2 = (m.ask .next).2 := congrArg Prod.snd same
      rw [List.replicate_succ, after, after, List.foldl_cons, List.foldl_cons, step]

/-- After any calls the lexer goes on as after the calls of `next` alone that they come to. -/
theorem next_after (l : Lexer) (calls : List Call) :
    (l.after calls).next = (l.after (List.replicate (l.consumed calls) .next)).next := by
  induction calls generalizing l with
  | nil => rfl
  | cons call rest ih =>
      refine (ih (l.ask call).2).trans ?_
      rw [consumed, ask_fst]
      cases call with
      | next => rw [Call.consumes, Bool.toNat_true, Nat.add_comm, List.replicate_succ]; rfl
      | peek =>
          cases moves : Call.peek.consumes l.next.1 with
          | true =>
              have step : (l.ask .peek).2 = (l.ask .next).2 := peek_of_consumes moves
              rw [step, Bool.toNat_true, Nat.add_comm, List.replicate_succ]
              rfl
          | false =>
              rw [Bool.toNat_false, Nat.zero_add]
              exact next_after_of_next (next_peek moves) _

theorem answer_eq (l : Lexer) (calls : List Call) (call : Call) :
    l.answer calls call = l.answer (List.replicate (l.consumed calls) .next) .next := by
  rw [answer, ask_fst, next_after]
  rfl

/-- Where no passing error was met, the calls for the next token alone move the lexer on. -/
theorem consumed_of_lasting {calls : List Call}
    (lasting : ∀ before later, calls = before ++ .peek :: later →
      ∀ e, l.answer before .peek = .error e → e.kind.isPassing = false) :
    l.consumed calls = calls.count .next := by
  induction calls generalizing l with
  | nil => rfl
  | cons call rest ih =>
      have more := ih (l := (l.ask call).2) fun before later same e refused =>
        lasting (call :: before) later (congrArg (call :: ·) same) e refused
      rw [consumed, more]
      cases call with
      | next => simp [Call.consumes, Nat.add_comm]
      | peek =>
          have stays : Call.peek.consumes (l.ask .peek).1 = false := by
            cases found : (l.ask .peek).1 with
            | ok t => rfl
            | error e => exact lasting [] rest rfl e found
          simp [stays]

/-- A passing error is not the next answer again. -/
theorem next_next_ne {e : AssemblyError} (found : l.next.1 = .error e)
    (passes : e.kind.isPassing = true) : l.next.2.next.1 ≠ .error e := by
  obtain ⟨cursor, _ | t⟩ := l
  · rcases read : cursor.next with ⟨r, after⟩
    simp only [next, read] at found ⊢
    rw [found] at read
    exact Cursor.next_ne_of_passing read passes
  · cases found

/-- What was seen ahead is what comes next, unless it was a passing error. -/
theorem next_peek_iff :
    l.peek.2.next.1 = l.next.1 ↔ ∀ e, l.next.1 = .error e → e.kind.isPassing = false := by
  constructor
  · intro same e found
    by_contra passes
    rw [Bool.not_eq_false] at passes
    have moves : Call.peek.consumes l.next.1 = true := by rwa [found, Call.consumes]
    rw [peek_of_consumes moves, found] at same
    exact next_next_ne found passes same
  · intro lasting
    have stays : Call.peek.consumes l.next.1 = false := by
      cases found : l.next.1 with
      | ok t => rfl
      | error e => exact lasting e found
    rw [next_peek stays]

/-- To look ahead consumes nothing where it meets no passing error. Otherwise it is answered as a
call for the next token is, and counts as one, and only then has the call after it another
answer. -/
theorem peek_consumes_passing_errors (source : String) (calls : List Call) :
    let l := ofSource source
    (∀ call, l.answer calls call = l.answer (List.replicate (l.consumed calls) .next) .next) ∧
    ((∀ before later, calls = before ++ .peek :: later →
        ∀ e, l.answer before .peek = .error e → e.kind.isPassing = false) →
      ∀ call, l.answer calls call = l.answer (List.replicate (calls.count .next) .next) .next) ∧
    (l.answer (calls ++ [.peek]) .next = l.answer calls .peek ↔
      ∀ e, l.answer calls .peek = .error e → e.kind.isPassing = false) := by
  intro l
  refine ⟨l.answer_eq calls, fun lasting call => ?_, ?_⟩
  · rw [answer_eq, consumed_of_lasting lasting]
  · have ahead : l.answer calls .peek = (l.after calls).next.1 := ask_fst ..
    have afterwards : l.answer (calls ++ [.peek]) .next = (l.after calls).peek.2.next.1 := by
      rw [answer, after, List.foldl_append]
      rfl
    rw [ahead, afterwards]
    exact next_peek_iff

/-- In `12a nop` the error is seen ahead, and the next token is the one behind it. -/
example : let l := ofSource "12a nop"
    l.answer [] .peek = .error ⟨.invalidNumber, some {}⟩ ∧
      l.answer [.peek] .next = .ok (some ⟨.operator (.system .nop), ⟨0, 4, 4⟩⟩) := by
  decide +kernel

end Lexer

end ReducedX86
