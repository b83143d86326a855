import ReducedX86.Text.Quoted.Table
import ReducedX86.Text.Ranges

/-!
Text between double quotes, for people to read.

The quote, the backslash and the common controls are written with a backslash and a sign;
whatever has no visible form of its own is written by its code point in hexadecimal.
-/
namespace ReducedX86.Text

def isEscaped (c : Char) : Bool :=
  c.toNat < 0x20 || inRanges escapedRanges c

def codePointEscape (c : Char) : List Char :=
  ['\\', 'u', Char.ofNat 0x7B] ++ Nat.toDigits 16 c.toNat ++ [Char.ofNat 0x7D]

def quotedChar (c : Char) : List Char :=
  match c with
  | '"' => ['\\', '"']
  | '\\' => ['\\', '\\']
  | '\n' => ['\\', 'n']
  | '\r' => ['\\', 'r']
  | '\t' => ['\\', 't']
  | _ =>
      if c.toNat = 0 then ['\\', '0']
      else if isEscaped c then codePointEscape c
      else [c]

def quoted (s : String) : String :=
  String.ofList ('"' :: s.toList.flatMap quotedChar ++ ['"'])

end ReducedX86.Text
