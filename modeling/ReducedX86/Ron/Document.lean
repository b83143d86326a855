import ReducedX86.Ron.Value

/-!
RON documents, and the readers for what a document is expected to hold.

A document is one value, before which attributes may ask for variations of the notation. Who
reads a document says what value is expected: records of named fields, options, lists, marked
variants. Fields that are not expected are passed over.
-/
namespace ReducedX86.Ron

open Reader

def maxDepth : Nat := 128

def list {α : Type} (element : Reader α) : Reader (List α) := do
  sign '['
  let items ← separated element ']'
  sign ']'
  return items

def bool : Reader Bool := do
  if ← word "true" then return true
  guard (← word "false")
  return false

/-- An option; one that is present may be written bare if the document says so. -/
def option {α : Type} (e : Extensions) (content : Reader α) : Reader (Option α) := do
  if ← word "None" then return none
  if ← word "Some" then
    gap
    if ← consumes "(" then
      gap
      let a ← content
      discard comma
      sign ')'
      return some a
  guard e.implicitSome
  return some (← content)

/-- A value that is marked with the name of its variant. -/
def variant {α : Type} (content : String → Option (Reader α)) : Reader α := do
  gap
  let read ← content (← identifier)
  gap
  sign '('
  gap
  let a ← read
  discard comma
  sign ')'
  return a

/-- The name of a record, which may be left out unless the document asks for it. -/
def recordName (e : Extensions) (name : String) : Reader Unit := do
  if (← peek).any Text.isIdentifierChar then guard ((← identifier) == name)
  else guard !e.explicitStructNames

/-- A record of a name. Each field that is expected, by its name, changes a value and comes once
at most; those that are required come once. Other fields may nest to a depth. -/
def record {α : Type} (e : Extensions) (name : String) (depth : Nat)
    (expected : String → Option (Reader (α → α))) (required : List String) (start : α) :
    Reader α := do
  recordName e name
  gap
  sign '('
  let fields ← separated (field depth) ')'
  sign ')'
  let changes := fields.filterMap id
  guard (changes.map Prod.fst).Nodup
  guard (required.all (changes.map Prod.fst).contains)
  return changes.foldl (fun a (_, change) => change a) start
where
  /-- A field, if it is expected. -/
  field (depth : Nat) : Reader (Option (String × (α → α))) := do
    let name ← identifier
    between ':'
    match expected name with
    | some read => return some (name, ← read)
    | none =>
        anyValue e depth false
        return none

def Extensions.enable? (e : Extensions) (name : String) : Option Extensions :=
  match name with
  | "unwrap_newtypes" => some { e with unwrapNewtypes := true }
  | "implicit_some" => some { e with implicitSome := true }
  | "unwrap_variant_newtypes" => some { e with unwrapVariantNewtypes := true }
  | "explicit_struct_names" => some { e with explicitStructNames := true }
  | _ => none

/-- Signs with blanks after each of them. -/
def signs : List String → Reader Unit
  | [] => return ()
  | text :: rest => do
      expect text
      gap
      signs rest

/-- The attributes before the value, each with the names of some extensions. The fuel is the
number of characters at hand. -/
def attributes (e : Extensions) : Nat → Reader Extensions
  | 0 => failure
  | fuel + 1 => do
      gap
      if !(← follows '#') then return e
      signs ["#", "!", "[", "enable", "("]
      let names ← separated identifier ')'
      guard !names.isEmpty
      signs [")", "]"]
      let e : Extensions ← (names.foldlM Extensions.enable? e : Option Extensions)
      attributes e fuel

/-- What a document holds, unless it is malformed or holds something else. -/
def document? {α : Type} (read : Extensions → Reader α) (text : String) : Option α :=
  let whole : Reader α := do
    let e ← attributes {} ((← get).length + 1)
    let a ← read e
    gap
    guard (← get).isEmpty
    return a
  (whole text.toList).map Prod.fst

end ReducedX86.Ron
