import ReducedX86.Assembly.Lexer
import ReducedX86.Variable.Table

/-!
Memory operands in source text.

Between brackets stands a sum of products of numbers, registers and variables, which count as
their addresses. Constants fold modulo `2 ^ 32`. A product may multiply one register by
constants, which makes it the index; of two bare registers the right one is the base. Every
parser here returns what is left of the tokens, which is shorter than what it was given.
-/
namespace ReducedX86.Assembly

/-- A product: a constant, a bare register, or a register times a constant. Positions are for
error reports. -/
inductive Term
  | constant (value : Word) (position : Position)
  | register (r : Register) (position : Position)
  | scaled (r : Register) (scale : Word) (scalePosition position : Position)
  deriving DecidableEq, Repr, Inhabited

def Term.position : Term → Position
  | constant _ p | register _ p | scaled _ _ _ p => p

/-- A parser's answer: a value and the tokens after it. -/
abbrev Parsed (α : Type) := Except AssemblyError (α × TokenStream)

def invalidReference (p : Position) : AssemblyError := AssemblyErrorKind.invalidMemoryReference.at p

def factor (table : VariableTable) (t : Lexeme) : Except AssemblyError Term :=
  match t.token with
  | .number value => .ok (.constant value t.position)
  | .register r => .ok (.register r t.position)
  | .identifier name =>
      match table.find? name with
      | some v => .ok (.constant v.address t.position)
      | none => .error (invalidReference t.position)
  | _ => .error (invalidReference t.position)

/-- The product of two terms, at most one of which may hold a register. A factor before a scaled
register multiplies its scale. -/
def Term.times : Term → Term → Except AssemblyError Term
  | .constant a _, .constant b p => .ok (.constant (a * b) p)
  | .constant a _, .scaled r scale scaleAt p => .ok (.scaled r (a * scale) scaleAt p)
  | .constant a scaleAt, .register r p => .ok (.scaled r a scaleAt p)
  | .register r p, .constant a scaleAt => .ok (.scaled r a scaleAt p)
  | _, right => .error (invalidReference right.position)

/-- A product, up to the plus sign or the bracket after it, which is left in place. -/
def product (table : VariableTable) (start : Position) : TokenStream → Parsed Term
  | .done => .error (invalidReference start)
  | .broken e => .error e
  | .token t rest =>
      match factor table t with
      | .error e => .error e
      | .ok left =>
          match rest with
          | .done => .error (invalidReference start)
          | .broken e => .error e
          | .token sign rest' =>
              match sign.token with
              | .add | .closeBracket => .ok (left, .token sign rest')
              | .multiply =>
                  match product table start rest' with
                  | .error e => .error e
                  | .ok (right, after) =>
                      match left.times right with
                      | .error e => .error e
                      | .ok term => .ok (term, after)
              | _ => .error (invalidReference sign.position)

theorem product_shorter (table : VariableTable) (start : Position) (s : TokenStream)
    {term : Term} {after : TokenStream} (h : product table start s = .ok (term, after)) :
    after.length < s.length := by
  fun_induction product table start s generalizing term after with
  | case6 | case7 => cases h; simp only [TokenStream.length]; omega
  | case10 _ _ _ _ _ _ _ _ hp _ _ ih =>
      cases h
      have := ih hp
      simp only [TokenStream.length] at this ⊢
      omega
  | _ => cases h

/-- The products of a sum up to its closing bracket, which is consumed. -/
def sum (table : VariableTable) (start : Position) (s : TokenStream) : Parsed (List Term) :=
  match _h : product table start s with
  | .error e => .error e
  | .ok (_, .done) => .error (invalidReference start)
  | .ok (_, .broken e) => .error e
  | .ok (term, .token sign rest) =>
      match sign.token with
      | .closeBracket => .ok ([term], rest)
      | .add =>
          match sum table start rest with
          | .error e => .error e
          | .ok (terms, after) => .ok (term :: terms, after)
      | _ => .error (invalidReference sign.position)
termination_by s.length
decreasing_by
  have := product_shorter table start s _h
  simp only [TokenStream.length] at this
  omega

theorem sum_shorter (table : VariableTable) (start : Position) (s : TokenStream)
    {terms : List Term} {after : TokenStream} (h : sum table start s = .ok (terms, after)) :
    after.length < s.length := by
  fun_induction sum table start s generalizing terms after with
  | case4 _ _ _ _ hp =>
      have := product_shorter table start _ hp
      cases h
      simp only [TokenStream.length] at this
      omega
  | case6 _ _ _ _ hp _ _ _ hs ih =>
      have h₁ := product_shorter table start _ hp
      have h₂ := ih hs
      cases h
      simp only [TokenStream.length] at h₁
      omega
  | _ => cases h

/-- What the terms read so far, from the right, say about the address. -/
structure Gathered where
  displacement : Word := 0
  base : Option Register := none
  index : Option (Register × Word × Position) := none
  deriving DecidableEq, Repr, Inhabited

/-- Adds the next term to the left. -/
def Gathered.add (g : Gathered) : Term → Except AssemblyError Gathered
  | .constant value _ => .ok { g with displacement := g.displacement + value }
  | .register r p =>
      if g.base.isNone then .ok { g with base := some r }
      else if g.index.isNone then .ok { g with index := some (r, 1, p) }
      else .error (invalidReference p)
  | .scaled r scale scaleAt p =>
      if g.index.isSome then .error (invalidReference p)
      else .ok { g with index := some (r, scale, scaleAt) }

def ofTerms (terms : List Term) (size : Nat) : Except AssemblyError MemoryOperand :=
  match terms.reverse.foldlM Gathered.add {} with
  | .error e => .error e
  | .ok g =>
      match g.index with
      | none => .ok { base := g.base, displacement := g.displacement, size }
      | some (r, factor, p) =>
          match Scale.ofFactor? factor with
          | some scale =>
              .ok { base := g.base, index := some r, scale,
                    displacement := g.displacement, size }
          | none => .error (AssemblyErrorKind.invalidScale.at p)

/-- Consumes one token, which has to be the given one. At the end of the text the error is
reported at `fallback`. -/
def expect (token : Token) (kind : AssemblyErrorKind) (fallback : Position) :
    TokenStream → Except AssemblyError TokenStream
  | .done => .error (kind.at fallback)
  | .broken e => .error e
  | .token t rest => if t.token = token then .ok rest else .error (kind.at t.position)

theorem expect_shorter {token : Token} {kind : AssemblyErrorKind} {fallback : Position}
    {s after : TokenStream} (h : expect token kind fallback s = .ok after) :
    after.length < s.length := by
  unfold expect at h
  split at h
  · cases h
  · cases h
  · split at h
    · cases h; simp [TokenStream.length]
    · cases h

/-- The access width that starts a memory operand, and the tokens after its open bracket. -/
def sizeMark (first : Lexeme) (s : TokenStream) : Parsed Nat :=
  match first.token with
  | .width w =>
      match expect .ptr .ptrExpected first.position s with
      | .error e => .error e
      | .ok s' =>
          match expect .openBracket .bracketExpected first.position s' with
          | .error e => .error e
          | .ok s'' => .ok (w.bytes, s'')
  | _ => .ok (0, s)

/-- A memory operand whose first token, a width or an open bracket, has been consumed. -/
def memoryOperand (table : VariableTable) (first : Lexeme) (s : TokenStream) :
    Parsed MemoryOperand :=
  match sizeMark first s with
  | .error e => .error e
  | .ok (size, s') =>
      match sum table first.position s' with
      | .error e => .error e
      | .ok (terms, after) =>
          match ofTerms terms size with
          | .error e => .error e
          | .ok m => .ok (m, after)

theorem sizeMark_le {first : Lexeme} {s after : TokenStream} {size : Nat}
    (h : sizeMark first s = .ok (size, after)) : after.length ≤ s.length := by
  unfold sizeMark at h
  split at h
  · split at h
    · cases h
    · split at h
      · cases h
      · rename_i h₁ _ _ h₂
        have := expect_shorter h₁
        have := expect_shorter h₂
        cases h
        omega
  · cases h; exact Nat.le_refl _

theorem memoryOperand_shorter {table : VariableTable} {first : Lexeme}
    {s after : TokenStream} {m : MemoryOperand}
    (h : memoryOperand table first s = .ok (m, after)) : after.length < s.length := by
  unfold memoryOperand at h
  split at h
  · cases h
  · split at h
    · cases h
    · split at h
      · cases h
      · rename_i h₁ _ _ _ h₂ _ _ _
        have := sizeMark_le h₁
        have := sum_shorter _ _ _ h₂
        cases h
        omega

end ReducedX86.Assembly
