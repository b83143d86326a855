/-!
Text as 16-bit units.

A character outside the first 65536 takes a pair of units from two reserved ranges. Decoding
puts the replacement character for a unit of a pair that stands alone.
-/
namespace ReducedX86.Text

def unitsOfChar (c : Char) : List UInt16 :=
  if c.toNat < 0x10000 then [UInt16.ofNat c.toNat]
  else
    let rest := c.toNat - 0x10000
    [UInt16.ofNat (0xD800 + rest / 0x400), UInt16.ofNat (0xDC00 + rest % 0x400)]

def units (s : String) : List UInt16 := s.toList.flatMap unitsOfChar

def isHighUnit (u : UInt16) : Bool := 0xD800 ≤ u && u < 0xDC00

def isLowUnit (u : UInt16) : Bool := 0xDC00 ≤ u && u < 0xE000

/-- The character of a unit by itself; a unit that belongs into a pair has none. -/
def charOfUnit (u : UInt16) : Char :=
  if isHighUnit u || isLowUnit u then Char.ofNat 0xFFFD else Char.ofNat u.toNat

/-- The character of a pair of units. -/
def charOfPair (u v : UInt16) : Char :=
  Char.ofNat (0x10000 + (u.toNat - 0xD800) * 0x400 + (v.toNat - 0xDC00))

def charsOfUnits : List UInt16 → List Char
  | [] => []
  | [u] => [charOfUnit u]
  | u :: v :: rest =>
      if isHighUnit u && isLowUnit v then charOfPair u v :: charsOfUnits rest
      else charOfUnit u :: charsOfUnits (v :: rest)

def ofUnits (us : List UInt16) : String := String.ofList (charsOfUnits us)

end ReducedX86.Text
