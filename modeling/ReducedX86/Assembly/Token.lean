import ReducedX86.Assembly.Error
import ReducedX86.Assembly.Numeral

/-!
Tokens and their reading from text.

A token is one of six punctuation characters or a word. A word is a maximal run of word
characters, with a minus sign before it or not; it is a number if it starts with a sign or a
digit, and otherwise, in either case, a keyword, a register, an operator or a name. Blanks,
line breaks and comments separate words and are otherwise without meaning. A cursor walks over
the text and knows its position; reading an erroneous token leaves it after the word or on the
character that is in the way.
-/
namespace ReducedX86

inductive Token
  | multiply
  | add
  | comma
  | colon
  | openBracket
  | closeBracket
  | number (value : Word)
  | width (w : Width)
  | ptr
  | register (r : Register)
  | operator (op : Operator)
  | identifier (name : String)
  deriving DecidableEq, Repr, Inhabited

structure Lexeme where
  token : Token
  position : Position
  deriving DecidableEq, Repr, Inhabited

namespace Token

/-- Blanks other than line breaks. -/
def isBlank (c : Char) : Bool :=
  let n := c.toNat
  n == 0x09 || n == 0x0B || n == 0x0C || n == 0x20 || n == 0xA0 || n == 0x1680 || n == 0x180E ||
    (0x2000 ≤ n && n ≤ 0x200A) || n == 0x202F || n == 0x205F || n == 0x3000 || n == 0xFEFF

def isLineBreak (c : Char) : Bool :=
  let n := c.toNat
  n == 0x0A || n == 0x0D || n == 0x85 || n == 0x2028 || n == 0x2029

/-- ASCII letters, digits, the underscore, and everything from `À` on that does not separate. -/
def isWordChar (c : Char) : Bool :=
  c == '_' || c.isAlphanum || (0xC0 ≤ c.toNat && !isBlank c && !isLineBreak c)

def punctuation? : Char → Option Token
  | '*' => some multiply
  | '+' => some add
  | ',' => some comma
  | ':' => some colon
  | '[' => some openBracket
  | ']' => some closeBracket
  | _ => none

/-- Whether a word ends before this character; any other character there is an error. -/
def endsWord (c : Char) : Bool :=
  isLineBreak c || isBlank c || (punctuation? c).isSome || c == ';'

/-- The token of a word that starts with a letter. -/
def ofName (name : String) : Token :=
  let lowered := Text.lower name
  match lowered with
  | "byte" => width .byte
  | "word" => width .word
  | "dword" => width .dword
  | "ptr" => ptr
  | _ =>
      match Register.ofName? lowered with
      | some r => register r
      | none =>
          match Operator.ofName? lowered with
          | some op => operator op
          | none => identifier name

def ofWord (word : List Char) : Except AssemblyErrorKind Token :=
  let text := String.ofList word
  match word with
  | c :: _ =>
      if c ≤ '9' then
        match Numeral.read text with
        | .ok value => .ok (number value)
        | .error .invalid => .error .invalidNumber
        | .error .outOfRange => .error .valueOutOfRange
      else .ok (ofName text)
  | [] => .ok (ofName text)

end Token

/-- What is left of a text, and the position of its first character. -/
structure Cursor where
  rest : List Char
  position : Position
  deriving Repr, Inhabited

namespace Cursor

def ofSource (source : String) : Cursor := ⟨source.toList, {}⟩

/-- The position after `count` characters of the same line. -/
def along (p : Position) (count : Nat) : Position :=
  ⟨p.line, p.column + count, p.index + count⟩

/-- The position after a line break of `width` characters. -/
def below (p : Position) (width : Nat) : Position := ⟨p.line + 1, 0, p.index + width⟩

/-- Passes over blanks, line breaks and comments; two different break characters of the pair
carriage return and line feed are one break. -/
def skipFrom (inComment : Bool) (p : Position) : List Char → Cursor
  | [] => ⟨[], p⟩
  | '\n' :: '\r' :: rest => skipFrom false (below p 2) rest
  | '\r' :: '\n' :: rest => skipFrom false (below p 2) rest
  | c :: rest =>
      if Token.isLineBreak c then skipFrom false (below p 1) rest
      else if inComment || Token.isBlank c then skipFrom inComment (along p 1) rest
      else if c == ';' then skipFrom true (along p 1) rest
      else ⟨c :: rest, p⟩

def skip (c : Cursor) : Cursor := skipFrom false c.position c.rest

/-- The word at a character that may start one, and the cursor after it. -/
def word (c : Char) (rest : List Char) (p : Position) : List Char × Cursor :=
  let tail := rest.takeWhile Token.isWordChar
  (c :: tail, ⟨rest.dropWhile Token.isWordChar, along p (tail.length + 1)⟩)

/-- Reads the next token, or `none` at the end of the text. -/
def next (cursor : Cursor) : Except AssemblyError (Option Lexeme) × Cursor :=
  let start := cursor.skip
  match start.rest with
  | [] => (.ok none, start)
  | c :: rest =>
      match Token.punctuation? c with
      | some token => (.ok (some ⟨token, start.position⟩), ⟨rest, along start.position 1⟩)
      | none =>
          if c == '-' || Token.isWordChar c then
            let (chars, stop) := word c rest start.position
            match stop.rest.head?.filter (!Token.endsWord ·) with
            | some bad => (.error ((AssemblyErrorKind.invalidCharacter bad).at stop.position), stop)
            | none =>
                match Token.ofWord chars with
                | .ok token => (.ok (some ⟨token, start.position⟩), stop)
                | .error kind => (.error (kind.at start.position), stop)
          else (.error ((AssemblyErrorKind.invalidCharacter c).at start.position), start)

end Cursor

end ReducedX86
