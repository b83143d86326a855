import ReducedX86.Text.LowerCase.Table
import ReducedX86.Text.Ranges

/-!
Lower-casing of whole texts.

Every character maps to its lower-case form; the capital I with a dot above becomes two
characters. A capital sigma becomes the final sigma where it ends a word: a cased character
stands before it and none after it, characters that case ignores not counted. Names that
differ only in case have the same lower-case text.
-/
namespace ReducedX86.Text

def isCased (c : Char) : Bool := inRanges casedRanges c

def isCaseIgnorable (c : Char) : Bool := inRanges caseIgnorableRanges c

/-- Where a run sends a character, if it covers it. -/
def CaseRun.image? (run : CaseRun) (c : Char) : Option Char :=
  let n := c.toNat
  if run.first ≤ n && n ≤ run.last && (n - run.first) % run.stride == 0 then
    some (Char.ofNat (run.target + (n - run.first)))
  else none

def lowerChar (c : Char) : List Char :=
  if c.toNat < 0x80 then [c.toLower]
  else if c.toNat = 0x130 then ['i', Char.ofNat 0x307]
  else [(caseRuns.findSome? (·.image? c)).getD c]

/-- Whether the first character that case does not ignore has case. -/
def startsCased (cs : List Char) : Bool :=
  match cs.dropWhile isCaseIgnorable with
  | c :: _ => isCased c
  | [] => false

/-- Lower-cases characters that stand after a cased character or not, as `afterCased` tells. -/
def lowerChars (afterCased : Bool) : List Char → List Char
  | [] => []
  | c :: rest =>
      let lowered :=
        if c.toNat = 0x3A3 then
          [Char.ofNat (if afterCased && !startsCased rest then 0x3C2 else 0x3C3)]
        else lowerChar c
      lowered ++ lowerChars (if isCaseIgnorable c then afterCased else isCased c) rest

def lower (s : String) : String := String.ofList (lowerChars false s.toList)

end ReducedX86.Text
