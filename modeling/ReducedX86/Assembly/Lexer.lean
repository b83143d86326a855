import ReducedX86.Assembly.Token

/-!
Reading a whole text as tokens.

A lexer hands out tokens one by one and can look one ahead; a token that was looked at is kept
for the next call, an error or the end of the text is found again. The token stream of a text is
what a lexer that only moves forward hands out up to its first error. Each token consumes at
least one character, so the stream is finite (`length_rest_lt_of_next`).
-/
namespace ReducedX86

namespace Cursor

theorem length_skipFrom_le (inComment : Bool) (p : Position) (cs : List Char) :
    (skipFrom inComment p cs).rest.length ≤ cs.length := by
  fun_induction skipFrom inComment p cs with
  | case1 => simp
  | case2 _ _ rest ih | case3 _ _ rest ih => simp only [List.length_cons]; omega
  | case4 _ _ c rest _ _ _ ih | case5 _ _ c rest _ _ _ _ ih | case6 _ _ c rest _ _ _ _ _ ih =>
      simp only [List.length_cons]; omega
  | case7 => simp

theorem length_dropWhile_le (f : Char → Bool) (cs : List Char) :
    (cs.dropWhile f).length ≤ cs.length :=
  (List.dropWhile_sublist f).length_le

theorem length_rest_lt_of_next {cursor after : Cursor} {t : Lexeme}
    (h : cursor.next = (.ok (some t), after)) : after.rest.length < cursor.rest.length := by
  have hs := length_skipFrom_le false cursor.position cursor.rest
  unfold next skip at h
  generalize skipFrom false cursor.position cursor.rest = start at h hs
  simp only at h
  split at h
  · cases h
  · rename_i c rest hr
    rw [hr, List.length_cons] at hs
    split at h
    · cases h; exact hs
    · split at h
      · have hd := length_dropWhile_le Token.isWordChar rest
        simp only [word] at h
        split at h
        · cases h
        · split at h
          · cases h; simp only; omega
          · cases h
      · cases h

end Cursor

/-- A cursor with one token of lookahead. -/
structure Lexer where
  cursor : Cursor
  lookahead : Option Lexeme := none
  deriving Repr, Inhabited

namespace Lexer

def ofSource (source : String) : Lexer := { cursor := Cursor.ofSource source }

def next (l : Lexer) : Except AssemblyError (Option Lexeme) × Lexer :=
  match l.lookahead with
  | some t => (.ok (some t), { l with lookahead := none })
  | none => let (found, cursor) := l.cursor.next; (found, { l with cursor })

def peek (l : Lexer) : Except AssemblyError (Option Lexeme) × Lexer :=
  match l.lookahead with
  | some t => (.ok (some t), l)
  | none =>
      let (found, cursor) := l.cursor.next
      match found with
      | .ok t => (.ok t, { cursor, lookahead := t })
      | .error e => (.error e, { l with cursor })

end Lexer

/-- The tokens of a text up to its end or its first error. -/
inductive TokenStream
  | done
  | broken (error : AssemblyError)
  | token (t : Lexeme) (rest : TokenStream)
  deriving DecidableEq, Repr, Inhabited

namespace TokenStream

def length : TokenStream → Nat
  | done | broken _ => 0
  | token _ rest => rest.length + 1

def ofCursor (cursor : Cursor) : TokenStream :=
  match _h : cursor.next with
  | (.ok none, _) => done
  | (.error e, _) => broken e
  | (.ok (some t), after) => token t (ofCursor after)
termination_by cursor.rest.length
decreasing_by exact Cursor.length_rest_lt_of_next _h

def ofSource (source : String) : TokenStream := ofCursor (Cursor.ofSource source)

end TokenStream

end ReducedX86
