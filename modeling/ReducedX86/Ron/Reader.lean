import ReducedX86.Text.Identifier

/-!
Readers of RON text: blanks, comments, signs, words and identifiers.

A reader takes characters and gives a value and the characters after it, or nothing if the text
is malformed; no report says more than that. Blanks and comments may stand between any two
signs, and block comments nest.
-/
namespace ReducedX86.Ron

abbrev Reader (α : Type) := StateT (List Char) Option α

namespace Reader

def char : Reader Char := fun cs =>
  match cs with
  | c :: rest => some (c, rest)
  | [] => none

/-- The next character, if there is one; nothing is consumed. -/
def peek : Reader (Option Char) := return (← get).head?

/-- Whether a character comes next; nothing is consumed. -/
def follows (c : Char) : Reader Bool := return (← peek) == some c

/-- Consumes a text, if it comes next. -/
def consumes (text : String) : Reader Bool := do
  let cs ← get
  if text.toList.isPrefixOf cs then
    set (cs.drop text.length)
    return true
  else return false

/-- Consumes a text, which must come next. -/
def expect (text : String) : Reader Unit := do guard (← consumes text)

def sign (c : Char) : Reader Unit := do guard ((← char) == c)

/-- The longest run of characters of a class. -/
def run (p : Char → Bool) : Reader (List Char) := do
  let cs ← get
  set (cs.dropWhile p)
  return cs.takeWhile p

/-- What a reader finds; nothing is consumed. -/
def ahead {α : Type} (r : Reader α) : Reader α := fun cs => (r cs).map fun (a, _) => (a, cs)

/-- What a reader finds, or nothing, and then nothing is consumed. -/
def attempt {α : Type} (r : Reader α) : Reader (Option α) := fun cs =>
  match r cs with
  | some (a, rest) => some (some a, rest)
  | none => some (none, cs)

end Reader

open Reader

def isBlank (c : Char) : Bool :=
  let n := c.toNat
  (0x09 ≤ n && n ≤ 0x0D) || n == 0x20 || n == 0x85 || n == 0x200E || n == 0x200F || n == 0x2028 ||
    n == 0x2029

/-- Where a reader is among blanks and comments. -/
inductive Gap
  | blank
  | line
  | block (depth : Nat)

/-- The characters after blanks and comments. -/
def skipGap : Gap → List Char → Option (List Char)
  | .blank, [] | .line, [] => some []
  | .block _, [] => none
  | .blank, '/' :: '/' :: rest => skipGap .line rest
  | .blank, '/' :: '*' :: rest => skipGap (.block 0) rest
  | .blank, c :: rest =>
      if isBlank c then skipGap .blank rest
      else if c == '/' then none
      else some (c :: rest)
  | .line, c :: rest => skipGap (if c == '\n' then .blank else .line) rest
  | .block depth, '/' :: '*' :: rest => skipGap (.block (depth + 1)) rest
  | .block 0, '*' :: '/' :: rest => skipGap .blank rest
  | .block (depth + 1), '*' :: '/' :: rest => skipGap (.block depth) rest
  | .block depth, _ :: rest => skipGap (.block depth) rest

/-- Passes over blanks and comments. -/
def gap : Reader Unit := fun cs => (skipGap .blank cs).map fun rest => ((), rest)

/-- A sign between two others, with blanks around it. -/
def between (c : Char) : Reader Unit := do
  gap
  sign c
  gap

/-- Consumes a comma, if one comes next, and the blanks around it. -/
def comma : Reader Bool := do
  gap
  if ← consumes "," then
    gap
    return true
  else return false

/-- Consumes a word, if it comes next and ends where the given text does. -/
def word (text : String) : Reader Bool := do
  let cs ← get
  if ← consumes text then
    if (← peek).any Text.isIdentifierChar then
      set cs
      return false
    else return true
  else return false

/-- The characters that identifiers may hold which are marked as raw. -/
def isRawChar (c : Char) : Bool :=
  c == '.' || c == '+' || c == '-' || Text.isIdentifierChar c

/-- The signs with which strings start that look like identifiers. -/
def startsQuoted (cs : List Char) : Bool :=
  ["r\"", "r#\"", "r##", "b\"", "b'", "br\"", "br#"].any fun text => text.toList.isPrefixOf cs

/-- An identifier, if one comes next. The raw ones come after `r#`. -/
def identifier? : Reader (Option String) := do
  let cs ← get
  if startsQuoted cs then return none
  else if ← consumes "r#" then
    let name ← run isRawChar
    if name.isEmpty then
      set cs
      return none
    else return some (String.ofList name)
  else if cs.head?.any Text.isIdentifierStart then
    return some (String.ofList (← run Text.isIdentifierChar))
  else return none

/-- An identifier where one must stand. What only a raw one may hold must not follow it. -/
def identifier : Reader String := do
  let some name ← identifier? | failure
  guard !((← peek).any isRawChar)
  return name

/-- Elements with commas between them, and perhaps one at the end, up to a closing sign, which is
left. The fuel is the number of characters at hand. -/
def elements {α : Type} (element : Reader α) (close : Char) : Nat → Reader (List α)
  | 0 => failure
  | fuel + 1 => do
      gap
      if ← follows close then return []
      let item ← element
      if ← comma then return item :: (← elements element close fuel)
      guard (← follows close)
      return [item]

def separated {α : Type} (element : Reader α) (close : Char) : Reader (List α) := do
  elements element close ((← get).length + 1)

end ReducedX86.Ron
