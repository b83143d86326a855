import ReducedX86.Text.Identifier.Table
import ReducedX86.Text.Ranges

/-!
Which characters identifiers are made of: letters to start with, then letters, digits, marks and
connectors. The underscore counts as a letter at the start.
-/
namespace ReducedX86.Text

def isIdentifierStart (c : Char) : Bool :=
  c == '_' || c.isAlpha || inRanges identifierStartRanges c

def isIdentifierChar (c : Char) : Bool :=
  isIdentifierStart c || c.isDigit || inRanges identifierMiddleRanges c

end ReducedX86.Text
