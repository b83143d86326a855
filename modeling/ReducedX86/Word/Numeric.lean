import ReducedX86.Word

/-!
Numbers as text: hexadecimal digits of a chosen width, and the three renderings in which a
value of a given size can be shown. Hexadecimal digits are upper case.
-/
namespace ReducedX86.Word

def hexDigit (d : Nat) : Char :=
  if d < 10 then Char.ofNat (48 + d) else Char.ofNat (55 + d)

/-- Exactly `count` hexadecimal digits of `n`, the most significant one first. -/
def fixedHex : Nat → Nat → List Char
  | 0, _ => []
  | count + 1, n => fixedHex count (n / 16) ++ [hexDigit (n % 16)]

/-- The hexadecimal digits of a word without leading zeros; zero is written `0`. -/
def shortHex (w : Word) : String :=
  match (fixedHex 8 w.toNat).dropWhile (· == '0') with
  | [] => "0"
  | digits => String.ofList digits

/-- Digits that `size` bytes take; a size other than 1, 2 or 3 takes eight. -/
def hexWidth : Nat → Nat
  | 1 => 2
  | 2 => 4
  | 3 => 6
  | _ => 8

/-- The low `size` bytes of a word, zero padded and without a radix mark. -/
def hexDigits (w : Word) (size : Nat) : String :=
  String.ofList (fixedHex (hexWidth size) w.toNat)

def hex (w : Word) (size : Nat) : String := "0x" ++ hexDigits w size

inductive Rendering
  | hexadecimal
  | unsigned
  | signed
  deriving DecidableEq, Repr

/-- A value of `size` bytes as text; the decimal renderings say which one they are. -/
def render (w : Word) (rendering : Rendering) (size : Nat) : String :=
  match rendering with
  | .hexadecimal => hex w size
  | .unsigned => toString (truncate w size).toNat ++ " (u)"
  | .signed => toString (signed w size) ++ " (s)"

end ReducedX86.Word
