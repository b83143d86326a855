import Mathlib.Algebra.Ring.Nat
import ReducedX86.Assembly.Address

/-!
The expressions between the brackets of a memory operand, and what they mean.

An expression is a sum of products of factors. Its value is a number; registers count with what
they hold and variables with their addresses. An operand has room for two registers, one of them
with a scale, and `Expression.Addressable` says which expressions fit.
-/
namespace ReducedX86.Assembly

inductive Factor
  | number (value : Word)
  | register (r : Register)
  | named (name : String)
  deriving DecidableEq, Repr, Inhabited

inductive Product
  | single (f : Factor)
  | times (f : Factor) (p : Product)
  deriving DecidableEq, Repr, Inhabited

inductive Expression
  | single (p : Product)
  | plus (p : Product) (e : Expression)
  deriving DecidableEq, Repr, Inhabited

namespace Factor

def token : Factor → Token
  | number value => .number value
  | register r => .register r
  | named name => .identifier name

def register? : Factor → Option Register
  | register r => some r
  | number _ | named _ => none

def isDeclared (table : VariableTable) : Factor → Bool
  | named name => table.contains name
  | number _ | register _ => true

/-- What a factor is without regard to the registers. -/
def constant? (table : VariableTable) : Factor → Option Nat
  | number value => some value.toNat
  | register _ => none
  | named name => some ((table.find? name).elim 0 (·.address.toNat))

def value (table : VariableTable) (registers : RegisterFile) (f : Factor) : Nat :=
  match f.register? with
  | some r => (registers.get r).toNat
  | none => (f.constant? table).getD 1

end Factor

namespace Product

def factors : Product → List Factor
  | single f => [f]
  | times f p => f :: p.factors

def tokens : Product → List Token
  | single f => [f.token]
  | times f p => f.token :: .multiply :: p.tokens

def registers (p : Product) : List Register := p.factors.filterMap Factor.register?

/-- The product of the constants. -/
def scale (table : VariableTable) (p : Product) : Nat :=
  (p.factors.filterMap (Factor.constant? table)).prod

def value (table : VariableTable) (registers : RegisterFile) (p : Product) : Nat :=
  (p.factors.map (Factor.value table registers)).prod

def hasRegister (p : Product) : Bool := !p.registers.isEmpty

/-- The product has a register and other factors. -/
def multiplies (p : Product) : Bool := p.hasRegister && p.factors.length ≠ 1

/-- All names are declared, and there is at most one register. -/
def Sound (table : VariableTable) (p : Product) : Prop :=
  (∀ f ∈ p.factors, f.isDeclared table) ∧ p.registers.length ≤ 1

end Product

namespace Expression

def products : Expression → List Product
  | single p => [p]
  | plus p e => p :: e.products

def tokens : Expression → List Token
  | single p => p.tokens
  | plus p e => p.tokens ++ .add :: e.tokens

def value (table : VariableTable) (registers : RegisterFile) (e : Expression) : Nat :=
  (e.products.map (Product.value table registers)).sum

end Expression

/-- An operand has room for the registers of these products. -/
structure Fits (products : List Product) : Prop where
  registers : products.countP Product.hasRegister ≤ 2
  multiplied : products.countP Product.multiplies ≤ 1

/-- The processor can compute the expression as an address. -/
structure Expression.Addressable (table : VariableTable) (e : Expression) : Prop where
  sound : ∀ p ∈ e.products, p.Sound table
  fits : Fits e.products
  scaled : ∀ p ∈ e.products, p.multiplies → p.scale table % UInt32.size ∈ [1, 2, 4, 8]

instance (table : VariableTable) (p : Product) : Decidable (p.Sound table) :=
  inferInstanceAs (Decidable (_ ∧ _))

instance (products : List Product) : Decidable (Fits products) :=
  decidable_of_iff (_ ∧ _) ⟨fun h => ⟨h.1, h.2⟩, fun h => ⟨h.registers, h.multiplied⟩⟩

instance (table : VariableTable) (e : Expression) : Decidable (e.Addressable table) :=
  decidable_of_iff (_ ∧ _ ∧ _)
    ⟨fun h => ⟨h.1, h.2.1, h.2.2⟩, fun h => ⟨h.sound, h.fits, h.scaled⟩⟩

/-! The value of a product -/

/-- A product is what its registers hold, scaled. -/
theorem Product.value_eq (table : VariableTable) (registers : RegisterFile) (p : Product) :
    p.value table registers =
      (p.registers.map fun r => (registers.get r).toNat).prod * p.scale table := by
  have split (fs : List Factor) :
      (fs.map (Factor.value table registers)).prod =
        ((fs.filterMap Factor.register?).map fun r => (registers.get r).toNat).prod *
          (fs.filterMap (Factor.constant? table)).prod := by
    induction fs with
    | nil => rfl
    | cons f rest ih =>
        cases f <;>
          simp [ih, List.filterMap_cons, Factor.value, Factor.register?, Factor.constant?,
            Nat.mul_left_comm, Nat.mul_assoc]
  exact split p.factors

/-! Products factor by factor -/

@[simp] theorem Factor.register?_register (r : Register) : (register r).register? = some r := rfl

@[simp] theorem Factor.constant?_register (table : VariableTable) (r : Register) :
    (register r).constant? table = none := rfl

section

variable (table : VariableTable) (f : Factor) (p : Product)

@[simp] theorem Product.registers_single : (single f).registers = f.register?.toList := by
  cases f <;> rfl

@[simp] theorem Product.registers_times :
    (times f p).registers = f.register?.toList ++ p.registers := by
  cases f <;> rfl

@[simp] theorem Product.scale_single :
    (single f).scale table = (f.constant? table).getD 1 := by
  cases f <;> simp [scale, factors, Factor.constant?, List.filterMap_cons]

@[simp] theorem Product.scale_times :
    (times f p).scale table = (f.constant? table).getD 1 * p.scale table := by
  cases f <;> simp [scale, factors, Factor.constant?, List.filterMap_cons]

@[simp] theorem Product.multiplies_single : (single f).multiplies = false := by
  simp [multiplies, factors]

@[simp] theorem Product.multiplies_times :
    (times f p).multiplies = (times f p).hasRegister := by
  have several : (times f p).factors.length ≠ 1 := by
    cases p <;> simp [factors]
  simp [multiplies, several]

end

end ReducedX86.Assembly
