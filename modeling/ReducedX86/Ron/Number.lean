import ReducedX86.Ron.Quoted

/-!
Numbers in RON text.

Integers may carry a radix mark and a suffix that names their type. A suffix is looked for after
the hexadecimal digits that come first, so that of the radix marks only `0b`, which looks like
such digits, goes together with one. Underscores may separate digits but come first nowhere.
Numbers other than integers are only recognised, not evaluated.
-/
namespace ReducedX86.Ron

open Reader

/-- A type of integers by its width. -/
structure IntegerType where
  signed : Bool
  bits : Nat
  deriving DecidableEq, Repr, Inhabited

def IntegerType.admits (t : IntegerType) (n : Int) : Bool :=
  let half : Int := (1 <<< (t.bits - 1) : Nat)
  if t.signed then -half ≤ n && n < half else 0 ≤ n && n < 2 * half

def IntegerType.unsigned (bits : Nat) : IntegerType := ⟨false, bits⟩

def integerTypes : List (String × IntegerType) :=
  [("i8", ⟨true, 8⟩), ("i16", ⟨true, 16⟩), ("i32", ⟨true, 32⟩), ("i64", ⟨true, 64⟩),
   ("u8", ⟨false, 8⟩), ("u16", ⟨false, 16⟩), ("u32", ⟨false, 32⟩), ("u64", ⟨false, 64⟩)]

def isIntegerChar (c : Char) : Bool := (hexValue? c).isSome || c == '_'

def isFloatChar (c : Char) : Bool :=
  c.isDigit || c == 'e' || c == 'E' || c == '.' || c == '+' || c == '-' || c == '_'

/-- The sign of a number; true is minus. -/
def numberSign : Reader Bool := do
  if ← consumes "-" then return true
  else
    discard <| consumes "+"
    return false

/-- The radix that the mark of an integer states. -/
def radix : Reader Nat := do
  if ← consumes "0b" then return 2
  else if ← consumes "0o" then return 8
  else if ← consumes "0x" then return 16
  else return 10

/-- The number of some digits, underscores not counted. -/
def digitsValue? (radix : Nat) (digits : List Char) : Option Nat :=
  (digits.filter (· ≠ '_')).foldlM (fun value c => do
    let d ← hexValue? c
    if d < radix then some (value * radix + d) else none) 0

/-- An integer of a type, after its sign. -/
def integerOf (type : IntegerType) (minus : Bool) : Reader Int := do
  let radix ← radix
  let digits ← run isIntegerChar
  guard (!digits.isEmpty && digits.head? != some '_')
  let n ← digitsValue? radix digits
  let value : Int := if minus then -n else n
  guard (type.admits value)
  return value

/-- A type suffix, if one comes next. -/
def integerSuffix? : List (String × IntegerType) → Reader (Option IntegerType)
  | [] => return none
  | (text, type) :: rest => do if ← word text then return some type else integerSuffix? rest

/-- An integer and the type that its suffix names. Without one its type is `plain`, which may
depend on whether it has a minus sign. -/
def integer (plain : Bool → IntegerType) : Reader (Int × Option IntegerType) := do
  let minus ← numberSign
  let start ← get
  discard <| run isIntegerChar
  match ← integerSuffix? integerTypes with
  | some type =>
      let rest ← get
      set start
      let value ← integerOf type minus
      set rest
      return (value, some type)
  | none =>
      set start
      return (← integerOf (plain minus) minus, none)

/-- An unsigned integer of a number of bits. A suffix must name that type, and only a byte may be
written as a character. -/
def unsigned (bits : Nat) : Reader Nat := do
  let type := IntegerType.unsigned bits
  if (← get).take 2 == ['b', quoteMark] then
    discard char
    let value ← byteLiteral
    guard (bits == 8)
    return value
  else
    let (value, suffix) ← integer fun _ => type
    guard (suffix.all (· == type))
    return value.toNat

/-- Whether underscores stand only where one is allowed: after a digit or an exponent's letter,
and signs and underscores after that. -/
def separatesDigits (allowed : Bool) : List Char → Bool
  | [] => true
  | c :: rest =>
      if c == '_' then allowed && separatesDigits allowed rest
      else if c == '.' then separatesDigits false rest
      else separatesDigits (allowed || c.isDigit || c == 'e' || c == 'E') rest

/-- Digits before and after the point, of which there is at least one, and an exponent or none. -/
def isFloatText (cs : List Char) : Bool :=
  let unsign (cs : List Char) : List Char :=
    match cs with
    | '-' :: rest | '+' :: rest => rest
    | cs => cs
  let whole := (unsign cs).takeWhile Char.isDigit
  let (fraction, rest) := match (unsign cs).dropWhile Char.isDigit with
    | '.' :: rest => (rest.takeWhile Char.isDigit, rest.dropWhile Char.isDigit)
    | rest => ([], rest)
  let exponent := match rest with
    | [] => true
    | c :: rest =>
        (c == 'e' || c == 'E') && !(unsign rest).isEmpty && (unsign rest).all Char.isDigit
  !(whole ++ fraction).isEmpty && exponent

/-- Consumes the first of some words that comes next. -/
def anyWord : List String → Reader Bool
  | [] => return false
  | text :: rest => do if ← word text then return true else anyWord rest

/-- Numbers that are written as words. -/
def numberWords : List String := ["inf", "inff32", "inff64", "NaN", "NaNf32", "NaNf64"]

/-- A number with a point or an exponent, or a named one. -/
def float : Reader Unit := do
  let start ← get
  discard numberSign
  if ← anyWord numberWords then return
  set start
  let text ← run isFloatChar
  guard (separatesDigits false text && isFloatText (text.filter (· ≠ '_')))
  discard <| anyWord ["f32", "f64"]

/-- Whether a number has signs that no integer has. -/
def looksLikeFloat : Reader Bool := ahead do
  discard numberSign
  let cs ← get
  return (cs.takeWhile isIntegerChar).length < (cs.takeWhile isFloatChar).length

/-- Any number; an integer that no type holds counts as another number. -/
def number : Reader Unit := do
  if ← looksLikeFloat then float
  else if (← attempt (integer fun minus => ⟨minus, 64⟩)).isNone then float

end ReducedX86.Ron
