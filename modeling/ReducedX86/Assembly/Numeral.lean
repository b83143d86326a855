import ReducedX86.Word
import ReducedX86.Text.LowerCase

/-!
Number literals.

A literal is decimal, or hexadecimal or binary with a mark before (`0x`, `0b`) or after its
digits (`h`, `b`); marks before the digits are looked for first. A minus sign may precede it.
Literals denote the integers from `-2 ^ 31` to `2 ^ 32 - 1`, negative ones as words modulo
`2 ^ 32`. Digits are accumulated up to 64 bits: a literal that leaves them is out of range even
if a character after that point is no digit.
-/
namespace ReducedX86.Numeral

inductive Error
  | invalid
  | outOfRange
  deriving DecidableEq, Repr, Inhabited

/-- The value of a lower-case digit, if it is one in the radix. -/
def digit? (radix : Nat) (c : Char) : Option Nat :=
  let value :=
    if '0' ≤ c ∧ c ≤ '9' then c.toNat - 48
    else if 'a' ≤ c ∧ c ≤ 'z' then c.toNat - 87
    else radix
  if value < radix then some value else none

/-- The number of some digits, continued from `value`. -/
def accumulate (radix : Nat) (value : Nat) : List Char → Except Error Nat
  | [] => .ok value
  | c :: rest =>
      match digit? radix c with
      | none => .error .invalid
      | some d =>
          let next := value * radix + d
          if next < UInt64.size then accumulate radix next rest else .error .outOfRange

/-- The radix of a literal without sign, and its digits. -/
def split : List Char → Nat × List Char
  | '0' :: 'x' :: rest => (16, rest)
  | '0' :: 'b' :: rest => (2, rest)
  | body =>
      if body.length < 2 then (10, body)
      else if body.getLast? = some 'b' then (2, body.dropLast)
      else if body.getLast? = some 'h' then (16, body.dropLast)
      else (10, body)

def magnitude (body : List Char) : Except Error Nat :=
  match split body with
  | (_, []) => .error .invalid
  | (radix, digits) => accumulate radix 0 digits

def read (text : String) : Except Error Word :=
  match (Text.lower text).toList with
  | '-' :: body =>
      match magnitude body with
      | .error e => .error e
      | .ok n => if n ≤ 0x80000000 then .ok (Word.ofInt (-n)) else .error .outOfRange
  | body =>
      match magnitude body with
      | .error e => .error e
      | .ok n => if n < UInt32.size then .ok (UInt32.ofNat n) else .error .outOfRange

end ReducedX86.Numeral
