import ReducedX86.Ron.Number

/-!
Passing over RON values of any kind.

A value that nobody asks for must still be well formed. Containers may nest to a fixed depth: a
container takes one level and each of its elements another, the content of an option one.
-/
namespace ReducedX86.Ron

open Reader

/-- Variations of the notation that a document can ask for. -/
structure Extensions where
  unwrapNewtypes : Bool := false
  implicitSome : Bool := false
  unwrapVariantNewtypes : Bool := false
  explicitStructNames : Bool := false
  deriving DecidableEq, Repr, Inhabited

/-- What stands between the parentheses of an option. -/
inductive Content
  | fields
  | elements
  | single
  deriving DecidableEq, Repr

def opensNesting (c : Char) : Bool := c == '(' || c == '[' || c == openBrace

def closesNesting (c : Char) : Bool := c == ')' || c == ']' || c == closeBrace

/-- Looks for a comma after the first of several elements, inside of `nesting` brackets more than
the outer ones. Brackets in quotes and comments do not count. A comment is not recognised directly
after a quote. The fuel is the number of characters at hand. -/
def findComma (nesting : Nat) : Nat → Reader Content
  | 0 => failure
  | fuel + 1 => do
      gap
      discard <| attempt charLiteral
      passString
      passByteString
      let c ← char
      if opensNesting c then findComma (nesting + 1) fuel
      else if closesNesting c then
        match nesting with
        | 0 => return .single
        | nesting + 1 => findComma nesting fuel
      else if c == ',' && nesting == 0 then
        gap
        return if ← follows ')' then .single else .elements
      else findComma nesting fuel

def startsField : Reader Bool := ahead do
  gap
  let name ← identifier?
  gap
  return name.isSome && (← follows ':')

/-- Looks at what stands between the parentheses of an option, up to where that is clear. -/
def content : Reader Content := ahead do
  if ← startsField then return .fields
  gap
  discard identifier?
  findComma 0 ((← get).length + 1)

/-- A field, whose name may be any. -/
def anyField (value : Reader Unit) : Reader Unit := do
  discard identifier
  between ':'
  value

/-- A key and the value that belongs to it. -/
def anyEntry (value : Reader Unit) : Reader Unit := do
  value
  between ':'
  value

/-- The readers that a value may use for what is inside of it. -/
structure Inside where
  /-- the content of an option; the flag tells that it may be a container without parentheses -/
  option : (bare : Bool) → Reader Unit
  /-- an element of a container, if a container may start -/
  element : Option (Reader Unit)

/-- Fields or elements up to a closing parenthesis, which is left. -/
def inParentheses (inside : Inside) (fields : Bool) : Reader Unit := do
  let element ← inside.element
  discard <| separated (if fields then anyField element else element) ')'

def anyOption (e : Extensions) (inside : Inside) : Reader Unit := do
  gap
  if ← consumes "(" then
    gap
    inside.option e.unwrapVariantNewtypes
    discard comma
    sign ')'
  else
    guard e.implicitSome
    inside.option false

def anyStructure (inside : Inside) : Reader Unit := do
  sign '('
  inParentheses inside (← startsField)
  sign ')'

def anyList (inside : Inside) : Reader Unit := do
  sign '['
  discard <| separated (← inside.element) ']'
  sign ']'

def anyMap (inside : Inside) : Reader Unit := do
  sign openBrace
  discard <| separated (anyEntry (← inside.element)) closeBrace
  sign closeBrace

/-- A value that starts with a sign or a digit, or quoted text that a letter marks. -/
def unnamedValue (inside : Inside) : Reader Unit := do
  let c ← ahead char
  if c == '(' then anyStructure inside
  else if c == '[' then anyList inside
  else if c == openBrace then anyMap inside
  else if c == '"' || c == 'r' then discard string
  else if c == quoteMark then discard charLiteral
  else if c == 'b' then
    if (← get).take 2 == ['b', quoteMark] then
      discard char
      discard byteLiteral
    else byteString
  else if c.isDigit || c == '+' || c == '-' || c == '.' then number
  else failure

/-- A value with its parentheses, brackets or braces. -/
def wholeValue (e : Extensions) (inside : Inside) : Reader Unit := do
  if ← anyWord (["true", "false", "None"] ++ numberWords) then return
  if ← word "Some" then anyOption e inside
  else if ← consumes "()" then return
  else if (← identifier?).isSome then
    gap
    if ← follows '(' then anyStructure inside
  else unnamedValue inside

/-- A value, or, if it may be bare, fields or elements without the parentheses around them. -/
def valueInside (e : Extensions) (inside : Inside) (bare : Bool) : Reader Unit := do
  if bare then
    if ← follows ')' then return
    match ← content with
    | .fields => inParentheses inside true
    | .elements => inParentheses inside false
    | .single => wholeValue e inside
  else wholeValue e inside

/-- A value in which values nest to a depth. -/
def anyValue (e : Extensions) : (depth : Nat) → (bare : Bool) → Reader Unit
  | 0 => valueInside e ⟨fun _ => failure, none⟩
  | 1 => valueInside e ⟨anyValue e 0, some failure⟩
  | depth + 2 => valueInside e ⟨anyValue e (depth + 1), some (anyValue e depth false)⟩

end ReducedX86.Ron
