import ReducedX86.Ron.Reader

/-!
Quoted RON text: strings, byte strings, raw ones of both, characters and bytes.

Escapes name a character by a letter, by its code point, or by a byte. In a string, bytes spell
out the encoding of a character; in a character, only the bytes below 128 stand for one.
-/
namespace ReducedX86.Ron

open Reader

def hexValue? (c : Char) : Option Nat :=
  if '0' ≤ c ∧ c ≤ '9' then some (c.toNat - 48)
  else if 'a' ≤ c ∧ c ≤ 'f' then some (c.toNat - 87)
  else if 'A' ≤ c ∧ c ≤ 'F' then some (c.toNat - 55)
  else none

def hexDigit : Reader Nat := do
  let c ← char
  hexValue? c

def hexByte : Reader Nat := return (← hexDigit) * 16 + (← hexDigit)

def quoteMark : Char := Char.ofNat 0x27
def openBrace : Char := Char.ofNat 0x7B
def closeBrace : Char := Char.ofNat 0x7D

/-- Up to `room` further hexadecimal digits of a number. -/
def hexNumber (value : Nat) : (room : Nat) → Reader Nat
  | 0 => return value
  | room + 1 => do
      if ← follows closeBrace then return value
      hexNumber (value * 16 + (← hexDigit)) room

/-- The character of a code point, unless it is none or less than `least`. -/
def charOf? (value least : Nat) : Option Char :=
  if value.isValidChar ∧ least ≤ value then some (Char.ofNat value) else none

/-- A code point between braces, of one to six digits. -/
def codePoint : Reader Char := do
  sign openBrace
  guard !(← follows closeBrace)
  let value ← hexNumber 0 6
  sign closeBrace
  charOf? value 0

/-- `count` further bytes of a character, each written as an escape of its own. -/
def continuation (value : Nat) : (count : Nat) → Reader Nat
  | 0 => return value
  | count + 1 => do
      expect "\\x"
      let b ← hexByte
      guard (0x80 ≤ b && b < 0xC0)
      continuation (value * 64 + (b - 0x80)) count

/-- A character by the bytes of its encoding, of which the first is given. It must not be written
with more bytes than needed. -/
def encodedChar (first : Nat) : Reader Char := do
  if first < 0x80 then return Char.ofNat first
  else if 0xC0 ≤ first ∧ first < 0xE0 then charOf? (← continuation (first - 0xC0) 1) 0x80
  else if 0xE0 ≤ first ∧ first < 0xF0 then charOf? (← continuation (first - 0xE0) 2) 0x800
  else if 0xF0 ≤ first ∧ first < 0xF8 then charOf? (← continuation (first - 0xF0) 3) 0x10000
  else failure

/-- What quotes hold, which decides what a byte escape stands for. -/
inductive QuotedKind
  | text
  | char
  | binary
  deriving DecidableEq

/-- The character that a byte escape stands for. -/
def escapedByte : QuotedKind → Reader Char
  | .text => do encodedChar (← hexByte)
  | .char => do
      let b ← hexByte
      guard (b < 0x80)
      return Char.ofNat b
  | .binary => return Char.ofNat (← hexByte)

/-- The character of an escape, after its backslash. -/
def escape (kind : QuotedKind) : Reader Char := do
  let c ← char
  if c == '"' || c == '\\' || c == quoteMark then return c
  else if c == 'n' then return '\n'
  else if c == 'r' then return '\r'
  else if c == 't' then return '\t'
  else if c == '0' then return Char.ofNat 0
  else if c == 'x' then escapedByte kind
  else if c == 'u' then codePoint
  else failure

/-- A string up to its closing quote. The fuel is the number of characters at hand. -/
def stringBody (kind : QuotedKind) : Nat → Reader (List Char)
  | 0 => failure
  | fuel + 1 => do
      let c ← char
      if c == '"' then return []
      let c ← if c == '\\' then escape kind else pure c
      return c :: (← stringBody kind fuel)

def quotedString (kind : QuotedKind) : Reader String := do
  return String.ofList (← stringBody kind ((← get).length + 1))

/-- The characters before the first occurrence of a text, and those after it. -/
def splitAt? (text : List Char) : List Char → Option (List Char × List Char)
  | [] => if text.isEmpty then some ([], []) else none
  | c :: rest =>
      if text.isPrefixOf (c :: rest) then some ([], (c :: rest).drop text.length)
      else (splitAt? text rest).map fun (before, after) => (c :: before, after)

/-- A raw string, after its letter: as many number signs as it starts with also end it. -/
def rawString : Reader String := do
  let hashes ← run (· == '#')
  sign '"'
  return String.ofList (← splitAt? ('"' :: hashes))

def string : Reader String := do
  if ← consumes "\"" then quotedString .text
  else
    expect "r"
    rawString

/-- A string of bytes, whose value is not kept. -/
def byteString : Reader Unit := do
  if ← consumes "b\"" then discard <| quotedString .binary
  else
    expect "br"
    discard rawString

/-- Passes over a string up to its closing quote, or to its first malformed escape. It fails if no
quote is left to close the string. The fuel is the number of characters at hand. -/
def stringEnd (kind : QuotedKind) : Nat → Reader Unit
  | 0 => failure
  | fuel + 1 => do
      guard ((← get).contains '"')
      discard <| run fun c => c != '"' && c != '\\'
      if (← char) == '"' then return
      if (← attempt (escape kind)).isSome then stringEnd kind fuel

/-- Passes over a raw string, after its letter. It fails if only the opening quote is there. -/
def rawStringEnd : Reader Unit := do
  let hashes ← run (· == '#')
  if ← consumes "\"" then guard (splitAt? ('"' :: hashes) (← get)).isSome

/-- Fails if a string that starts here with a mark lacks its end. It may be malformed otherwise. -/
def requireEnd (kind : QuotedKind) (mark : String) : Reader Unit := ahead do
  if ← consumes (mark ++ "\"") then stringEnd kind ((← get).length + 1)
  else if ← consumes (mark ++ "r") then rawStringEnd

/-- Passes over a string, if a well-formed one comes next. None may lack its end. -/
def passString : Reader Unit := do
  requireEnd .text ""
  discard <| attempt string

/-- Passes over a byte string, if a well-formed one comes next. None may lack its end. -/
def passByteString : Reader Unit := do
  requireEnd .binary "b"
  discard <| attempt byteString

def charLiteral : Reader Char := do
  sign quoteMark
  let c ← char
  let c ← if c == '\\' then escape .char else pure c
  sign quoteMark
  return c

/-- A byte written as a character, after its letter. It has no code point escapes. -/
def byteLiteral : Reader Nat := do
  sign quoteMark
  let c ← char
  let c ←
    if c == '\\' then
      guard !(← follows 'u')
      escape .binary
    else
      guard (c.toNat < 0x80)
      pure c
  sign quoteMark
  return c.toNat

end ReducedX86.Ron
