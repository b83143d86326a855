import ReducedX86.Proofs.Instruction.Restoring

/-!
The check of an instruction, in place.

Checked in place, operands get their widths one by one, and some get one before the last thing is
asked of them. Still nothing is left of a check that fails: a width is given only if the operand has
none, and after that nothing can fail. So the check in place leaves what `validate` answers, and it
leaves alone what it has left once.
-/
namespace ReducedX86

/-- A check that works on the operands themselves. They may have changed when it fails. -/
abbrev Check := EStateM ValidationError Operands Unit

namespace Check

open ValidationError

/-- Looks at the operands and leaves them. -/
def look {α : Type} (judge : Operands → Except ValidationError α) : Check := fun os =>
  match judge os with
  | .error e => .error e os
  | .ok _ => .ok () os

/-- Puts new operands in the place of the old ones if these pass. -/
def replace (judge : Operands → Except ValidationError Operands) : Check := fun os =>
  match judge os with
  | .error e => .error e os
  | .ok os' => .ok () os'

def setFirst (n : Nat) : Check := modify fun os => (os.1.map (·.withSize n), os.2)

def setSecond (n : Nat) : Check := modify fun os => (os.1, os.2.map (·.withSize n))

/-- Gives the second operand the width of the first if it has none, then looks whether they agree. -/
def fillSecond : Check := do
  let (some a, some b) ← get | throw invalidOperandCount
  if b.size = 0 then setSecond a.size
  let (some a, some b) ← get | throw invalidOperandCount
  if a.size ≠ b.size then throw sizeMismatch

/-- What a rule asks of operands and gives to them, one after the other. -/
def rule : OperandRule → Check
  | .sameSize => do
      let (some a, some b) ← get | throw invalidOperandCount
      if a.size = 0 ∧ b.size = 0 then throw sizeUnknown
      else if a.size = 0 then setFirst b.size
      else if b.size = 0 then setSecond a.size
      else if a.size ≠ b.size then throw sizeMismatch
  | .bitIndex => do
      let (some a, some b) ← get | throw invalidOperandCount
      if !Signature.wideSize a.size then throw destination16Or32Only
      if b.register?.any (!Signature.wideSize ·.size) then throw source16Or32Only
      fillSecond
  | .wideSameSize => do
      let (some a, some _) ← get | throw invalidOperandCount
      if !Signature.wideSize a.size then throw destination16Or32Only
      fillSecond
  | .pushed => do
      if let some a := (← get).1 then
        if a.kind = .immediate then setFirst 4
        else if !Signature.wideSize a.size then throw operand16Or32Only
  | .release => do
      if (← get).1.any (·.size = 0) then setFirst 4
  | rule => look fun
      | (some a, some b) => Signature.applyBinaryRule rule a b
      | (some a, none) => Signature.applyUnaryRule rule a
      | os => .ok os

end Check

/-- The check of an instruction's operands, in place. -/
def Signature.check (s : Signature) : Check := do
  if s.rule = .release ∧ (← get) = (none, none) then return
  Check.look (s.checkStructure · (s.rule ≠ .stateBlock) (s.rule ≠ .stateBlock ∧ s.rule ≠ .address))
  Check.rule s.rule

/-! In place and at once -/

namespace Check

open Signature

section Steps

variable {α β : Type} (c : EStateM ValidationError Operands α)
  (f : α → EStateM ValidationError Operands β) (os : Operands)

@[simp] theorem bind_apply : (c >>= f) os = match c os with
    | .ok x os' => f x os'
    | .error e os' => .error e os' := by
  cases done : c os <;> simp only [bind, EStateM.bind, done]

@[simp] theorem get_apply : (get : EStateM ValidationError Operands Operands) os = .ok os os := rfl

@[simp] theorem pure_apply (x : α) :
    (pure x : EStateM ValidationError Operands α) os = .ok x os := rfl

@[simp] theorem throw_apply (e : ValidationError) :
    (throw e : EStateM ValidationError Operands α) os = .error e os := rfl

@[simp] theorem setFirst_apply (n : Nat) :
    setFirst n os = .ok () (os.1.map (·.withSize n), os.2) := rfl

@[simp] theorem setSecond_apply (n : Nat) :
    setSecond n os = .ok () (os.1, os.2.map (·.withSize n)) := rfl

end Steps

theorem fillSecond_eq (a b : Operand) :
    fillSecond (some a, some b) = replace (fun _ => matchSizes a b) (some a, some b) := by
  rw [replace, matchSizes_eq]
  by_cases unknown : b.size = 0
  · have filled : (b.withSize a.size).size = a.size := Operand.size_withSize unknown a.size
    simp [fillSecond, unknown, filled]
  · by_cases same : a.size = b.size <;> simp [fillSecond, unknown, same]

theorem rule_binary (r : OperandRule) (a b : Operand) (binary : r ≠ .pushed ∧ r ≠ .release) :
    rule r (some a, some b) = replace (fun _ => applyBinaryRule r a b) (some a, some b) := by
  cases r with
  | sameSize =>
      simp only [rule, replace, applyBinaryRule, matchSizes_eq]
      by_cases unknown₁ : a.size = 0 <;> by_cases unknown₂ : b.size = 0
      · simp [unknown₁, unknown₂]
      · simp [unknown₁, unknown₂]
      · simp [unknown₁, unknown₂]
      · by_cases same : a.size = b.size <;> simp [unknown₁, unknown₂, same]
  | bitIndex =>
      simp only [rule, replace, applyBinaryRule]
      by_cases wide : wideSize a.size
      · cases b with
        | register r =>
            by_cases index : wideSize r.size <;>
              simp [wide, index, Operand.register?, fillSecond_eq, replace]
        | memory _ | immediate _ _ | label _ =>
            simp [wide, Operand.register?, fillSecond_eq, replace]
      · simp [wide]
  | wideSameSize =>
      simp only [rule, replace, applyBinaryRule]
      by_cases wide : wideSize a.size <;> simp [wide, fillSecond_eq, replace]
  | pushed => exact absurd rfl binary.1
  | release => exact absurd rfl binary.2
  | shiftCount | extension | address | portSource | portDestination =>
      simp only [rule, look, replace, applyBinaryRule]
      grind
  | _ => rfl

theorem rule_unary (r : OperandRule) (a : Operand) (unary : ¬ matchesWidths r) :
    rule r (some a, none) = replace (fun _ => applyUnaryRule r a) (some a, none) := by
  cases r with
  | pushed =>
      simp only [rule, replace, applyUnaryRule]
      by_cases constant : a.kind = .immediate <;> by_cases wide : wideSize a.size <;>
        simp [constant, wide]
  | release =>
      simp only [rule, replace, applyUnaryRule]
      by_cases unknown : a.size = 0 <;> simp [unknown]
  | sameSize | bitIndex | wideSameSize => exact absurd rfl unary
  | sized | byteDestination | register32 | wideDestination | popped | interruptNumber =>
      simp only [rule, look, replace, applyUnaryRule]
      grind
  | _ => rfl

theorem rule_none (r : OperandRule) (other : ¬ matchesWidths r) :
    rule r (none, none) = .ok () (none, none) := by
  cases r with
  | sameSize | bitIndex | wideSameSize => exact absurd rfl other
  | pushed | release => simp [rule]
  | _ => rfl

end Check

namespace Signature

/-- The rule is one for as many operands as there are. -/
def Suits (s : Signature) : Prop :=
  (matchesWidths s.rule → s.operandCount = 2) ∧
    (s.rule = .pushed ∨ s.rule = .release → s.operandCount = 1)

instance (s : Signature) : Decidable s.Suits := inferInstanceAs (Decidable (_ ∧ _))

/-- In place the check leaves what it answers, and what it was given if it fails. -/
theorem check_eq {s : Signature} (suits : s.Suits) : s.check = Check.replace s.validate := by
  funext os
  simp only [check, Check.replace, validate]
  by_cases nothing : s.rule = .release ∧ os = (none, none)
  · simp [nothing]
  · simp only [Check.bind_apply, Check.get_apply, if_neg nothing, Check.look]
    cases structure_ok : s.checkStructure os (s.rule ≠ .stateBlock)
        (s.rule ≠ .stateBlock ∧ s.rule ≠ .address) with
    | error e => rfl
    | ok _ =>
      have kinds := (checkStructure_eq_ok.mp structure_ok).1
      obtain ⟨a | a, b | b⟩ := os
      · have count : s.operandCount = 0 := by simp only [checkKinds] at kinds; grind
        exact Check.rule_none s.rule fun matching => by have := suits.1 matching; omega
      · cases kinds
      · have count : s.operandCount = 1 := by simp only [checkKinds] at kinds; grind
        exact Check.rule_unary s.rule a fun matching => by have := suits.1 matching; omega
      · have count : s.operandCount = 2 := by simp only [checkKinds] at kinds; grind
        refine Check.rule_binary s.rule a b ⟨fun pushed => ?_, fun release => ?_⟩
        · have := suits.2 (.inl pushed); omega
        · have := suits.2 (.inr release); omega

end Signature

theorem Operator.suits (op : Operator) : op.signature.Suits := by
  have all : ∀ op ∈ Operator.all, op.signature.Suits := by decide +kernel
  exact all op (mem_all op)

/-! What becomes of an operand -/

/-- What the check may make of an operand. A width is filled in where there was none; an immediate
that is pushed has 4 bytes whatever it had before. -/
inductive Operand.Completed (pushed : Prop) : Operand → Operand → Prop
  | same (o : Operand) : Completed pushed o o
  | memory (m : MemoryOperand) (n : Nat) (unknown : m.size = 0) :
      Completed pushed (.memory m) (.memory { m with size := n })
  | immediate (value : Word) (m n : Nat) (unknown : m = 0 ∨ pushed ∧ n = 4) :
      Completed pushed (.immediate value m) (.immediate value n)

theorem Operand.completed_withSize {pushed : Prop} {o : Operand} {n : Nat}
    (unknown : o.size = 0 ∨ o.size = n) : o.Completed pushed (o.withSize n) := by
  rcases unknown with unknown | rfl
  · cases o with
    | register r => exact .same _
    | memory m => exact .memory m n unknown
    | immediate value m => exact .immediate value m n (.inl unknown)
    | label address => exact .same _
  · rw [withSize_size]
    exact .same o

namespace Signature

theorem matchSizes_completed {a b : Operand} {os : Operands} (h : matchSizes a b = .ok os) :
    ∃ b', os = (some a, some b') ∧ b.Completed False b' ∧ b'.size = a.size := by
  rw [matchSizes_eq] at h
  split at h <;> cases h
  rename_i either
  refine ⟨b.withSize a.size, rfl, Operand.completed_withSize (either.imp_right Eq.symm), ?_⟩
  rcases either with unknown | same
  · exact Operand.size_withSize unknown a.size
  · rw [same, Operand.withSize_size]

theorem applyBinaryRule_completed {rule : OperandRule} {a b a' b' : Operand} {pushed : Prop}
    (h : applyBinaryRule rule a b = .ok (some a', some b')) :
    a.Completed pushed a' ∧ b.Completed False b' := by
  obtain ⟨-, ⟨⟩⟩ | ⟨-, unknown, -, ⟨⟩⟩ | ⟨-, -, matched⟩ := applyBinaryRule_cases h
  · exact ⟨.same a, .same b⟩
  · exact ⟨Operand.completed_withSize (.inl unknown), .same b⟩
  · obtain ⟨_, ⟨⟩, completed, -⟩ := matchSizes_completed matched
    exact ⟨.same a, completed⟩

theorem applyUnaryRule_completed {rule : OperandRule} {a a' : Operand}
    (h : applyUnaryRule rule a = .ok (some a', none)) : a.Completed (rule = .pushed) a' := by
  obtain ⟨⟨⟩⟩ | ⟨⟨⟩, unknown | ⟨pushed, constant⟩⟩ := applyUnaryRule_cases h
  · exact .same a
  · exact Operand.completed_withSize (.inl unknown)
  · cases a with
    | immediate value n => exact .immediate value n 4 (.inr ⟨pushed, rfl⟩)
    | register _ | memory _ | label _ => cases constant

/-! Once more -/

theorem matchSizes_of_size_eq {a b : Operand} (same : a.size = b.size) :
    matchSizes a b = .ok (some a, some b) := by
  rw [matchSizes_eq, if_pos (.inr same), same, Operand.withSize_size]

theorem applyBinaryRule_idem {rule : OperandRule} {a b a' b' : Operand}
    (h : applyBinaryRule rule a b = .ok (some a', some b')) :
    applyBinaryRule rule a' b' = .ok (some a', some b') := by
  cases rule with
  | sameSize =>
      obtain ⟨_, _, ⟨⟩, same⟩ := size_of_applyBinaryRule h rfl
      have known : a'.size ≠ 0 := by
        obtain ⟨⟨⟩, -⟩ | ⟨-, unknown, known, ⟨⟩⟩ | ⟨-, known, matched⟩ := applyBinaryRule_cases h
        · rw [Operand.size_withSize unknown]
          exact known
        · obtain ⟨_, ⟨⟩, -⟩ := matchSizes_completed matched
          exact known
      rw [applyBinaryRule, if_neg fun both => known both.1, if_neg known, matchSizes_of_size_eq same]
  | bitIndex =>
      simp only [applyBinaryRule] at h
      split at h
      · cases h
      · rename_i wide
        cases b with
        | register r =>
            simp only at h
            split at h
            · cases h
            · rename_i index
              obtain ⟨_, ⟨⟩, completed, same⟩ := matchSizes_completed h
              cases completed
              simp only [applyBinaryRule, if_neg wide, if_neg index, matchSizes_of_size_eq same.symm]
        | memory _ | immediate _ _ | label _ =>
            obtain ⟨_, ⟨⟩, completed, same⟩ := matchSizes_completed h
            cases completed <;>
              simp only [applyBinaryRule, if_neg wide, matchSizes_of_size_eq same.symm]
  | wideSameSize =>
      simp only [applyBinaryRule] at h ⊢
      split at h
      · cases h
      · rename_i wide
        obtain ⟨_, ⟨⟩, -, same⟩ := matchSizes_completed h
        rw [if_neg wide, matchSizes_of_size_eq same.symm]
  | shiftCount | extension | address | portSource | portDestination =>
      simp only [applyBinaryRule] at h ⊢
      grind
  | _ => cases h; rfl

theorem applyUnaryRule_idem {rule : OperandRule} {a a' : Operand}
    (h : applyUnaryRule rule a = .ok (some a', none)) :
    applyUnaryRule rule a' = .ok (some a', none) := by
  cases rule with
  | pushed =>
      simp only [applyUnaryRule] at h
      cases a with
      | immediate value n => cases h; rfl
      | register _ | memory _ | label _ =>
          simp only [Operand.kind] at h
          simp only [applyUnaryRule]
          grind [Operand.kind]
  | release =>
      simp only [applyUnaryRule] at h ⊢
      cases h
      by_cases unknown : a.size = 0
      · simp [unknown, Operand.size_withSize unknown]
      · simp [unknown]
  | sized | byteDestination | register32 | wideDestination | popped | interruptNumber =>
      simp only [applyUnaryRule] at h ⊢
      grind
  | _ => cases h; rfl

theorem validate_idem {s : Signature} {os os' : Operands} (h : s.validate os = .ok os') :
    s.validate os' = .ok os' := by
  obtain ⟨sizes₁, sizes₂⟩ := validate_supportedSize h
  cases passes_of_validate h with
  | none => exact h
  | @one a n count ruled kind eip =>
      have kind : (a.withSize n).kind ∈ s.first := (a.kind_withSize n).symm ▸ kind
      have checked := validate_of_unary count kind (fun block => sizes₁.resolve_left block)
        (Operand.withSize_ne_register eip n)
      exact checked.trans (applyUnaryRule_idem ruled)
  | @two a b m n count ruled kind₁ kind₂ apart eip₁ eip₂ =>
      have kind₁ : (a.withSize m).kind ∈ s.first := (a.kind_withSize m).symm ▸ kind₁
      have kind₂ : (b.withSize n).kind ∈ s.second := (b.kind_withSize n).symm ▸ kind₂
      have checked := validate_of_binary count kind₁ kind₂ (by simpa using apart)
        (fun block => sizes₁.resolve_left block)
        (fun block address => (sizes₂.resolve_left block).resolve_left address)
        (Operand.withSize_ne_register eip₁ m) (Operand.withSize_ne_register eip₂ n)
      exact checked.trans (applyBinaryRule_idem ruled)

end Signature

/-- The check gives widths and nothing else: to memory operands and immediates that have none, and
4 bytes to every immediate that is pushed. -/
structure Operator.Completes (op : Operator) (os os' : Operands) : Prop where
  first : Option.Rel (Operand.Completed (op = .stack .push)) os.1 os'.1
  second : Option.Rel (Operand.Completed False) os.2 os'.2
  pushed : op = .stack .push → ∀ value n, os.1 = some (.immediate value n) →
    os'.1 = some (.immediate value 4)

namespace Operator

theorem rule_eq_pushed_iff (op : Operator) : op.signature.rule = .pushed ↔ op = .stack .push := by
  have all : ∀ op ∈ Operator.all, op.signature.rule = .pushed ↔ op = .stack .push := by
    decide +kernel
  exact all op (mem_all op)

theorem completes_of_validate {op : Operator} {os os' : Operands}
    (h : op.signature.validate os = .ok os') : op.Completes os os' := by
  cases Signature.passes_of_validate h with
  | none => exact ⟨.none, .none, nofun⟩
  | one count ruled =>
      have completed := Signature.applyUnaryRule_completed ruled
      rw [op.rule_eq_pushed_iff] at completed
      refine ⟨.some completed, .none, ?_⟩
      rintro isPush value m ⟨⟩
      rw [op.rule_eq_pushed_iff.mpr isPush] at ruled
      exact congrArg Prod.fst (Except.ok.inj ruled).symm
  | two count ruled =>
      obtain ⟨first, second⟩ := Signature.applyBinaryRule_completed ruled
      refine ⟨.some first, .some second, ?_⟩
      rintro rfl
      cases count

/-- Checked in place, operands are left as they were if the check fails. Else they have got the widths
that were missing, and the check passes and changes nothing if it is made again. -/
theorem check_completes (op : Operator) (os : Operands) :
    match op.signature.check os with
    | .error e os' => os' = os ∧ op.signature.validate os = .error e
    | .ok () os' =>
        op.Completes os os' ∧ op.signature.validate os = .ok os' ∧
          op.signature.check os' = .ok () os' := by
  rw [Signature.check_eq op.suits, Check.replace]
  cases answer : op.signature.validate os with
  | error e => exact ⟨rfl, rfl⟩
  | ok os' =>
      have again : Check.replace op.signature.validate os' = .ok () os' := by
        rw [Check.replace, Signature.validate_idem answer]
      exact ⟨completes_of_validate answer, rfl, again⟩

end Operator

end ReducedX86
