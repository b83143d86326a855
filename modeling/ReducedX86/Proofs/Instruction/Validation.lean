import ReducedX86.Instruction
import ReducedX86.Instruction.Validation
import ReducedX86.Memory

/-!
What validation can see of operands, and what it does to them.

Rules look at kinds, widths, registers and immediate values, never at the address of a label, so
an instruction may be checked before its labels are known. What comes out are the operands that
went in, at widths that may be new; most rules see to it that no width is unknown then.
-/
namespace ReducedX86

namespace Operand

/-- The operand with another address in the place of a label's. -/
def relabel (f : Word → Word) : Operand → Operand
  | label address => label (f address)
  | o => o

@[simp] theorem relabel_label (f : Word → Word) (address : Word) :
    (label address).relabel f = label (f address) := rfl

@[simp] theorem withSize_label (address : Word) (n : Nat) :
    (label address).withSize n = label address := rfl

@[simp] theorem relabel_id (o : Operand) : o.relabel id = o := by cases o <;> rfl

@[simp] theorem kind_relabel (f : Word → Word) (o : Operand) : (o.relabel f).kind = o.kind := by
  cases o <;> rfl

@[simp] theorem size_relabel (f : Word → Word) (o : Operand) : (o.relabel f).size = o.size := by
  cases o <;> rfl

@[simp] theorem isMemory_relabel (f : Word → Word) (o : Operand) :
    (o.relabel f).isMemory = o.isMemory := by
  cases o <;> rfl

theorem withSize_relabel (f : Word → Word) (o : Operand) (n : Nat) :
    (o.relabel f).withSize n = (o.withSize n).relabel f := by
  cases o <;> rfl

@[simp] theorem relabel_beq_register (f : Word → Word) (o : Operand) (r : Register) :
    (o.relabel f == .register r) = (o == .register r) := by
  cases o <;> rfl

@[simp] theorem withSize_size (o : Operand) : o.withSize o.size = o := by cases o <;> rfl

@[simp] theorem kind_withSize (o : Operand) (n : Nat) : (o.withSize n).kind = o.kind := by
  cases o <;> rfl

@[simp] theorem isMemory_withSize (o : Operand) (n : Nat) :
    (o.withSize n).isMemory = o.isMemory := by
  cases o <;> rfl

@[simp] theorem size_memory (m : MemoryOperand) : (memory m).size = m.size := rfl

theorem size_withSize {o : Operand} (unknown : o.size = 0) (n : Nat) : (o.withSize n).size = n := by
  cases o with
  | memory _ | immediate _ _ => rfl
  | register r => cases r <;> cases unknown
  | label _ => cases unknown

theorem size_withSize_eq_or (o : Operand) (n : Nat) :
    (o.withSize n).size = o.size ∨ (o.withSize n).size = n := by
  cases o with
  | register _ | label _ => exact .inl rfl
  | memory _ | immediate _ _ => exact .inr rfl

theorem withSize_ne_register {o : Operand} {r : Register} (other : o ≠ register r) (n : Nat) :
    o.withSize n ≠ register r := by
  cases o with
  | register _ | label _ => exact other
  | memory _ | immediate _ _ => nofun

theorem eq_register_of_kind {o : Operand} (h : o.kind = .register) : ∃ r, o = register r := by
  cases o with
  | register r => exact ⟨r, rfl⟩
  | memory _ | immediate _ _ | label _ => cases h

theorem eq_label_of_kind {o : Operand} (h : o.kind = .label) : ∃ address, o = label address := by
  cases o with
  | label address => exact ⟨address, rfl⟩
  | register _ | memory _ | immediate _ _ => cases h

end Operand

def Operands.relabel (f g : Word → Word) : Operands → Operands :=
  Prod.map (Option.map (Operand.relabel f)) (Option.map (Operand.relabel g))

namespace Signature

variable (f g : Word → Word)

theorem checkKinds_relabel (s : Signature) (os : Operands) :
    s.checkKinds (os.relabel f g) = s.checkKinds os := by
  obtain ⟨a | a, b | b⟩ := os <;> simp [Operands.relabel, checkKinds]

theorem checkStructure_relabel (s : Signature) (os : Operands) (sizeOf1 sizeOf2 : Bool) :
    s.checkStructure (os.relabel f g) sizeOf1 sizeOf2 = s.checkStructure os sizeOf1 sizeOf2 := by
  have isEip (h : Word → Word) (o : Option Operand) :
      (o.map (Operand.relabel h) == some (.register .eip)) = (o == some (.register .eip)) := by
    cases o <;> simp
  have ofSize (h : Word → Word) (o : Option Operand) :
      (o.map (Operand.relabel h)).any (!supportedSize ·.size) = o.any (!supportedSize ·.size) := by
    cases o <;> simp
  unfold checkStructure
  rw [checkKinds_relabel]
  simp only [Operands.relabel, Prod.map_fst, Prod.map_snd, isEip, ofSize]

theorem matchSizes_relabel (a b : Operand) :
    matchSizes (a.relabel f) (b.relabel g) = (matchSizes a b).map (Operands.relabel f g) := by
  unfold matchSizes
  simp only [Operand.size_relabel, Operand.withSize_relabel, ← apply_ite (Operand.relabel g)]
  split <;> split <;> rfl

@[simp] theorem isAccumulator_relabel (a : Operand) :
    isAccumulator (a.relabel f) = isAccumulator a := by
  simp [isAccumulator]

theorem applyBinaryRule_relabel (rule : OperandRule) (a b : Operand) :
    applyBinaryRule rule (a.relabel f) (b.relabel g) =
      (applyBinaryRule rule a b).map (Operands.relabel f g) := by
  cases rule with
  | sameSize =>
      simp only [applyBinaryRule, Operand.size_relabel, Operand.withSize_relabel,
        matchSizes_relabel]
      split
      · rfl
      · split <;> rfl
  | bitIndex =>
      simp only [applyBinaryRule, Operand.size_relabel, matchSizes_relabel]
      split
      · rfl
      · cases b with
        | register r => simp only [Operand.relabel]; split <;> rfl
        | memory _ | immediate _ _ | label _ => rfl
  | wideSameSize =>
      simp only [applyBinaryRule, Operand.size_relabel, matchSizes_relabel]
      split <;> rfl
  | extension =>
      simp only [applyBinaryRule, Operand.size_relabel]
      split
      · rfl
      · split
        · rfl
        · split <;> rfl
  | address =>
      simp only [applyBinaryRule, Operand.size_relabel]
      split <;> rfl
  | shiftCount =>
      cases b with
      | register r => simp only [applyBinaryRule, Operand.relabel]; split <;> rfl
      | memory _ | immediate _ _ | label _ => rfl
  | portSource =>
      simp only [applyBinaryRule, isAccumulator_relabel]
      split
      · rfl
      · cases b with
        | register _ | immediate _ _ => simp only [Operand.relabel]; split <;> rfl
        | memory _ | label _ => rfl
  | portDestination =>
      simp only [applyBinaryRule, isAccumulator_relabel]
      cases a with
      | register _ | immediate _ _ =>
          simp only [Operand.relabel]
          split
          · rfl
          · split <;> rfl
      | memory _ | label _ => simp only [Operand.relabel]; split <;> rfl
  | _ => rfl

theorem applyUnaryRule_relabel (rule : OperandRule) (a : Operand)
    (h : rule = .interruptNumber → a.kind ≠ .label) :
    applyUnaryRule rule (a.relabel f) =
      (applyUnaryRule rule a).map (Operands.relabel f g) := by
  cases rule with
  | interruptNumber =>
      cases a with
      | label _ => exact absurd rfl (h rfl)
      | register _ | memory _ | immediate _ _ =>
          simp only [applyUnaryRule, Operand.relabel]
          split
          · split <;> rfl
          · rfl
  | pushed =>
      simp only [applyUnaryRule, Operand.kind_relabel, Operand.size_relabel,
        Operand.withSize_relabel]
      split
      · rfl
      · split <;> rfl
  | release =>
      simp only [applyUnaryRule, Operand.size_relabel, Operand.withSize_relabel,
        ← apply_ite (Operand.relabel f)]
      rfl
  | sized | byteDestination | register32 | wideDestination | popped =>
      simp only [applyUnaryRule, Operand.size_relabel]
      split <;> rfl
  | _ => rfl

theorem checkStructure_eq_ok {s : Signature} {os : Operands} {sizeOf1 sizeOf2 : Bool} :
    s.checkStructure os sizeOf1 sizeOf2 = .ok () ↔
      s.checkKinds os = .ok () ∧
        (sizeOf1 → os.1.all (supportedSize ·.size)) ∧
        (sizeOf2 → os.2.all (supportedSize ·.size)) ∧
        os.1 ≠ some (.register .eip) ∧ os.2 ≠ some (.register .eip) := by
  unfold checkStructure
  cases s.checkKinds os with
  | error e => simp [bind, Except.bind]
  | ok _ =>
      obtain ⟨a, b⟩ := os
      have any_not (o : Option Operand) :
          o.any (!supportedSize ·.size) = !o.all (supportedSize ·.size) := by
        cases o <;> rfl
      simp only [bind, Except.bind, throw, throwThe, MonadExceptOf.throw, pure, Except.pure, any_not]
      cases sizeOf1 <;> cases sizeOf2 <;> grind

/-- What is known of a single operand when its rule is applied. -/
theorem validate_unary {s : Signature} {a : Operand} {os : Operands}
    (h : s.validate (some a, none) = .ok os) :
    s.operandCount = 1 ∧ a.kind ∈ s.first ∧ (s.rule ≠ .stateBlock → supportedSize a.size) ∧
      a ≠ .register .eip ∧ applyUnaryRule s.rule a = .ok os := by
  unfold validate at h
  rw [if_neg (by simp)] at h
  split at h
  · cases h
  · rename_i structure_ok
    obtain ⟨kinds, size, -, eip, -⟩ := checkStructure_eq_ok.mp structure_ok
    have ⟨count, kind⟩ : s.operandCount = 1 ∧ a.kind ∈ s.first := by
      simp only [checkKinds] at kinds
      grind
    exact ⟨count, kind, by simpa using size, by simpa using eip, h⟩

/-- What is known of two operands when their rule is applied. -/
theorem validate_binary {s : Signature} {a b : Operand} {os : Operands}
    (h : s.validate (some a, some b) = .ok os) :
    s.operandCount = 2 ∧ a.kind ∈ s.first ∧ b.kind ∈ s.second ∧
      (a.isMemory && b.isMemory) = false ∧ (s.rule ≠ .stateBlock → supportedSize a.size) ∧
      (s.rule ≠ .stateBlock → s.rule ≠ .address → supportedSize b.size) ∧
      a ≠ .register .eip ∧ b ≠ .register .eip ∧ applyBinaryRule s.rule a b = .ok os := by
  unfold validate at h
  rw [if_neg (by simp)] at h
  split at h
  · cases h
  · rename_i structure_ok
    obtain ⟨kinds, size₁, size₂, eip₁, eip₂⟩ := checkStructure_eq_ok.mp structure_ok
    have ⟨count, kind₁, kind₂, apart⟩ : s.operandCount = 2 ∧ a.kind ∈ s.first ∧
        b.kind ∈ s.second ∧ (a.isMemory && b.isMemory) = false := by
      simp only [checkKinds] at kinds
      grind
    refine ⟨count, kind₁, kind₂, apart, by simpa using size₁, ?_, by simpa using eip₁,
      by simpa using eip₂, h⟩
    intro block address
    simpa [block, address] using size₂

theorem validate_none_some {s : Signature} {b : Operand} {os : Operands} :
    s.validate (none, some b) ≠ .ok os := by
  unfold validate
  rw [if_neg (by simp)]
  intro h
  split at h
  · cases h
  · rename_i structure_ok
    have kinds := (checkStructure_eq_ok.mp structure_ok).1
    cases kinds

theorem validate_none {s : Signature} {os : Operands} (h : s.validate (none, none) = .ok os) :
    os = (none, none) ∧ (s.rule ≠ .release → s.operandCount = 0) := by
  unfold validate at h
  split at h
  · rename_i release
    cases h
    exact ⟨rfl, fun other => absurd release.1 other⟩
  · split at h
    · cases h
    · rename_i structure_ok
      cases h
      have kinds := (checkStructure_eq_ok.mp structure_ok).1
      refine ⟨rfl, fun _ => ?_⟩
      simp only [checkKinds] at kinds
      grind

theorem matchSizes_eq (a b : Operand) :
    matchSizes a b =
      if b.size = 0 ∨ a.size = b.size then .ok (some a, some (b.withSize a.size))
      else .error .sizeMismatch := by
  unfold matchSizes
  by_cases unknown : b.size = 0
  · simp [unknown, Operand.size_withSize unknown]
  · by_cases same : a.size = b.size <;> simp [unknown, same]

theorem matchSizes_resized {a b : Operand} {os : Operands} (h : matchSizes a b = .ok os) :
    ∃ n, os = (some a, some (b.withSize n)) := by
  rw [matchSizes_eq] at h
  split at h <;> cases h
  exact ⟨a.size, rfl⟩

/-- The rule makes the operands agree in their width. -/
def matchesWidths : OperandRule → Bool
  | .sameSize | .bitIndex | .wideSameSize => true
  | _ => false

/-- A rule that does not ask two operands to agree leaves them as they are. One that does gives its
width to the one that has none. -/
theorem applyBinaryRule_cases {rule : OperandRule} {a b : Operand} {os : Operands}
    (h : applyBinaryRule rule a b = .ok os) :
    (matchesWidths rule = false ∧ os = (some a, some b)) ∨
      (matchesWidths rule ∧ a.size = 0 ∧ b.size ≠ 0 ∧ os = (some (a.withSize b.size), some b)) ∨
      (matchesWidths rule ∧ a.size ≠ 0 ∧ matchSizes a b = .ok os) := by
  cases rule with
  | sameSize =>
      simp only [applyBinaryRule] at h
      split at h
      · cases h
      · rename_i known
        split at h
        · rename_i unknown
          cases h
          exact .inr (.inl ⟨rfl, unknown, fun none => known ⟨unknown, none⟩, rfl⟩)
        · rename_i known
          exact .inr (.inr ⟨rfl, known, h⟩)
  | bitIndex | wideSameSize =>
      refine .inr (.inr ⟨rfl, fun unknown => ?_, ?_⟩)
      · simp [applyBinaryRule, unknown, wideSize] at h
      · simp only [applyBinaryRule] at h
        grind
  | _ =>
      refine .inl ⟨rfl, ?_⟩
      simp only [applyBinaryRule] at h
      grind

theorem applyBinaryRule_resized {rule : OperandRule} {a b : Operand} {os : Operands}
    (h : applyBinaryRule rule a b = .ok os) :
    ∃ m n, os = (some (a.withSize m), some (b.withSize n)) := by
  obtain ⟨-, rfl⟩ | ⟨-, -, -, rfl⟩ | ⟨-, -, matched⟩ := applyBinaryRule_cases h
  · exact ⟨a.size, b.size, by rw [Operand.withSize_size, Operand.withSize_size]⟩
  · exact ⟨b.size, b.size, by rw [Operand.withSize_size]⟩
  · obtain ⟨n, resized⟩ := matchSizes_resized matched
    exact ⟨a.size, n, by rw [Operand.withSize_size, resized]⟩

/-- A rule of one operand leaves it as it is, or gives it 4 bytes: where it has no width, or is a
constant that is pushed. -/
theorem applyUnaryRule_cases {rule : OperandRule} {a : Operand} {os : Operands}
    (h : applyUnaryRule rule a = .ok os) :
    os = (some a, none) ∨
      (os = (some (a.withSize 4), none) ∧ (a.size = 0 ∨ rule = .pushed ∧ a.kind = .immediate)) := by
  cases rule with
  | pushed =>
      simp only [applyUnaryRule] at h
      split at h
      · rename_i constant
        cases h
        exact .inr ⟨rfl, .inr ⟨rfl, constant⟩⟩
      · grind
  | release =>
      simp only [applyUnaryRule] at h
      cases h
      by_cases unknown : a.size = 0
      · rw [if_pos unknown]
        exact .inr ⟨rfl, .inl unknown⟩
      · rw [if_neg unknown]
        exact .inl rfl
  | _ =>
      simp only [applyUnaryRule] at h
      grind

theorem applyUnaryRule_resized {rule : OperandRule} {a : Operand} {os : Operands}
    (h : applyUnaryRule rule a = .ok os) : ∃ n, os = (some (a.withSize n), none) := by
  obtain rfl | ⟨rfl, -⟩ := applyUnaryRule_cases h
  · exact ⟨a.size, by rw [Operand.withSize_size]⟩
  · exact ⟨4, rfl⟩

/-- The ways in which operands pass a check, and what is known of them before and after it. -/
inductive Passes (s : Signature) : Operands → Operands → Prop
  | none (count : s.rule ≠ .release → s.operandCount = 0) : s.Passes (none, none) (none, none)
  | one {a : Operand} {n : Nat} (count : s.operandCount = 1)
      (ruled : applyUnaryRule s.rule a = .ok (some (a.withSize n), none)) (kind : a.kind ∈ s.first)
      (eip : a ≠ .register .eip) (supported : s.rule ≠ .stateBlock → supportedSize a.size) :
      s.Passes (some a, none) (some (a.withSize n), none)
  | two {a b : Operand} {m n : Nat} (count : s.operandCount = 2)
      (ruled : applyBinaryRule s.rule a b = .ok (some (a.withSize m), some (b.withSize n)))
      (first : a.kind ∈ s.first) (second : b.kind ∈ s.second)
      (apart : (a.isMemory && b.isMemory) = false)
      (eip₁ : a ≠ .register .eip) (eip₂ : b ≠ .register .eip)
      (supported₁ : s.rule ≠ .stateBlock → supportedSize a.size)
      (supported₂ : s.rule ≠ .stateBlock → s.rule ≠ .address → supportedSize b.size) :
      s.Passes (some a, some b) (some (a.withSize m), some (b.withSize n))

theorem passes_of_validate {s : Signature} {given os : Operands}
    (h : s.validate given = .ok os) : s.Passes given os := by
  obtain ⟨a | a, b | b⟩ := given
  · obtain ⟨rfl, count⟩ := validate_none h
    exact .none count
  · exact absurd h validate_none_some
  · obtain ⟨count, kind, supported, eip, ruled⟩ := validate_unary h
    obtain ⟨n, rfl⟩ := applyUnaryRule_resized ruled
    exact .one count ruled kind eip supported
  · obtain ⟨count, first, second, apart, supported₁, supported₂, eip₁, eip₂, ruled⟩ :=
      validate_binary h
    obtain ⟨m, n, rfl⟩ := applyBinaryRule_resized ruled
    exact .two count ruled first second apart eip₁ eip₂ supported₁ supported₂

/-- Validation changes nothing in operands but their widths. -/
theorem validate_resized {s : Signature} {os os' : Operands} (h : s.validate os = .ok os') :
    ∃ m n, os' = (os.1.map (·.withSize m), os.2.map (·.withSize n)) := by
  cases passes_of_validate h with
  | none => exact ⟨0, 0, rfl⟩
  | @one a n => exact ⟨n, 0, rfl⟩
  | @two a b m n => exact ⟨m, n, rfl⟩

end Signature

/-! Widths after the check -/

/-- Each operand has a width at which memory can be accessed. -/
def Operands.HaveWidths (os : Operands) : Prop :=
  os.1.all (Memory.isAccessSize ·.size) ∧ os.2.all (Memory.isAccessSize ·.size)

namespace Signature

/-- The rule leaves no width unknown. -/
def fixesWidths (s : Signature) : Bool :=
  match s.operandCount, s.rule with
  | 2, .sameSize | 2, .bitIndex | 2, .wideSameSize | 2, .extension => true
  | 1, .sized | 1, .byteDestination | 1, .register32 | 1, .wideDestination | 1, .pushed
  | 1, .popped => true
  | _, _ => false

theorem isAccessSize_of_supportedSize {n : Nat} (supported : supportedSize n) (known : n ≠ 0) :
    Memory.isAccessSize n := by
  simp only [supportedSize, Memory.isAccessSize, Bool.or_eq_true, beq_iff_eq] at supported ⊢
  omega

theorem supportedSize_of_isAccessSize {n : Nat} (access : Memory.isAccessSize n) :
    supportedSize n := by
  simp only [supportedSize, Memory.isAccessSize, Bool.or_eq_true, beq_iff_eq] at access ⊢
  omega

theorem ne_zero_of_isAccessSize {n : Nat} (access : Memory.isAccessSize n) : n ≠ 0 := by
  rintro rfl
  cases access

theorem isAccessSize_of_wideSize {n : Nat} (wide : wideSize n) : Memory.isAccessSize n := by
  simp only [wideSize, Memory.isAccessSize, Bool.or_eq_true, beq_iff_eq] at wide ⊢
  omega

theorem size_of_matchSizes {a b : Operand} {os : Operands} (h : matchSizes a b = .ok os) :
    ∃ b', os = (some a, some b') ∧ a.size = b'.size := by
  rw [matchSizes_eq] at h
  split at h <;> cases h
  rename_i either
  refine ⟨b.withSize a.size, rfl, ?_⟩
  rcases either with unknown | same
  · rw [Operand.size_withSize unknown]
  · rw [same, Operand.withSize_size]

theorem size_of_applyBinaryRule {rule : OperandRule} {a b : Operand} {os : Operands}
    (h : applyBinaryRule rule a b = .ok os) (matching : matchesWidths rule) :
    ∃ a' b', os = (some a', some b') ∧ a'.size = b'.size := by
  obtain ⟨unmatched, -⟩ | ⟨-, unknown, -, rfl⟩ | ⟨-, -, matched⟩ := applyBinaryRule_cases h
  · exact absurd matching (Bool.eq_false_iff.mp unmatched)
  · exact ⟨a.withSize b.size, b, rfl, Operand.size_withSize unknown b.size⟩
  · obtain ⟨b', rfl, same⟩ := size_of_matchSizes matched
    exact ⟨a, b', rfl, same⟩

theorem matchSizes_haveWidths {a b : Operand} {os : Operands} (h : matchSizes a b = .ok os)
    (width : Memory.isAccessSize a.size) : os.HaveWidths := by
  obtain ⟨b', rfl, same⟩ := size_of_matchSizes h
  refine ⟨width, ?_⟩
  rw [same] at width
  exact width

theorem applyBinaryRule_haveWidths {s : Signature} {a b : Operand} {os : Operands}
    (h : applyBinaryRule s.rule a b = .ok os) (fixes : s.fixesWidths) (two : s.operandCount = 2)
    (supported₁ : supportedSize a.size) (supported₂ : supportedSize b.size) : os.HaveWidths := by
  obtain ⟨count, first, second, rule, repeats, repeatable⟩ := s
  cases two
  obtain ⟨unmatched, rfl⟩ | ⟨-, unknown, known, rfl⟩ | ⟨-, known, matched⟩ :=
    applyBinaryRule_cases h
  · -- The one rule that fixes widths and does not ask them to agree wants the first the larger.
    cases rule with
    | extension =>
        simp only [applyBinaryRule] at h
        grind [Operands.HaveWidths, isAccessSize_of_wideSize, isAccessSize_of_supportedSize]
    | sameSize | bitIndex | wideSameSize => cases unmatched
    | _ => cases fixes
  · have width := isAccessSize_of_supportedSize supported₂ known
    refine ⟨?_, width⟩
    rw [Option.all_some, Operand.size_withSize unknown]
    exact width
  · exact matchSizes_haveWidths matched (isAccessSize_of_supportedSize supported₁ known)

theorem applyUnaryRule_haveWidths {s : Signature} {a : Operand} {os : Operands}
    (h : applyUnaryRule s.rule a = .ok os) (fixes : s.fixesWidths) (one : s.operandCount = 1)
    (supported : supportedSize a.size) : os.HaveWidths := by
  obtain ⟨count, first, second, rule, repeats, repeatable⟩ := s
  cases one
  cases rule with
  | pushed =>
      simp only [applyUnaryRule] at h
      split at h
      · rename_i constant
        cases h
        cases a with
        | immediate _ _ => exact ⟨rfl, rfl⟩
        | register _ | memory _ | label _ => cases constant
      · split at h
        · rename_i wide
          cases h
          exact ⟨isAccessSize_of_wideSize wide, rfl⟩
        · cases h
  | sized | byteDestination | register32 | wideDestination | popped =>
      simp only [applyUnaryRule] at h
      grind [Operands.HaveWidths, isAccessSize_of_wideSize, isAccessSize_of_supportedSize]
  | _ => cases fixes

theorem validate_haveWidths {s : Signature} {os os' : Operands} (h : s.validate os = .ok os')
    (fixes : s.fixesWidths) : os'.HaveWidths := by
  have block : s.rule ≠ .stateBlock := by
    intro same
    simp [fixesWidths, same] at fixes
  have address : s.rule ≠ .address := by
    intro same
    simp [fixesWidths, same] at fixes
  cases passes_of_validate h with
  | none => exact ⟨rfl, rfl⟩
  | one count ruled kind eip supported =>
      exact applyUnaryRule_haveWidths ruled fixes count (supported block)
  | two count ruled first second apart eip₁ eip₂ supported₁ supported₂ =>
      exact applyBinaryRule_haveWidths ruled fixes count (supported₁ block)
        (supported₂ block address)

end Signature

namespace Operator

theorem label_not_mem_of_interruptNumber (op : Operator)
    (h : op.signature.rule = .interruptNumber) : .label ∉ op.signature.first := by
  have all : ∀ op ∈ Operator.all, op.signature.rule = .interruptNumber →
      OperandKind.label ∉ op.signature.first := by decide +kernel
  exact all op (mem_all op) h

/-- The check of an instruction does not depend on where its labels are. -/
theorem validate_relabel (op : Operator) (f g : Word → Word) (os : Operands) :
    op.signature.validate (os.relabel f g) =
      (op.signature.validate os).map (Operands.relabel f g) := by
  have empty : os.relabel f g = (none, none) ↔ os = (none, none) := by
    obtain ⟨a | a, b | b⟩ := os <;> simp [Operands.relabel]
  unfold Signature.validate
  simp only [Signature.checkStructure_relabel, empty]
  split
  · rename_i h; rw [h.2]; rfl
  · split
    · rfl
    · rename_i structure_ok
      have kinds := (Signature.checkStructure_eq_ok.mp structure_ok).1
      obtain ⟨a | a, b | b⟩ := os
      · rfl
      · rfl
      · apply Signature.applyUnaryRule_relabel
        intro interrupt isLabel
        have absent := label_not_mem_of_interruptNumber op interrupt
        simp only [Signature.checkKinds, isLabel, absent] at kinds
        grind
      · exact Signature.applyBinaryRule_relabel f g ..

end Operator

/-- The operands of the instruction are what validation made of some operands. -/
def Instruction.Validated (i : Instruction) : Prop :=
  ∃ given, i.op.signature.validate given = .ok (i.op1, i.op2)

namespace Instruction.Validated

variable {i : Instruction}

/-- Operands of a validated instruction are of the kinds that its operator admits. -/
theorem kinds (h : i.Validated) :
    (∀ a, i.op1 = some a → a.kind ∈ i.op.signature.first) ∧
      (∀ b, i.op2 = some b → b.kind ∈ i.op.signature.second) := by
  obtain ⟨given, h⟩ := h
  refine ⟨fun a first => ?_, fun b second => ?_⟩
  · rw [first] at h
    generalize i.op2 = second at h
    cases Signature.passes_of_validate h with
    | one count ruled kind | two count ruled kind => rwa [Operand.kind_withSize]
  · rw [second] at h
    generalize i.op1 = first at h
    cases Signature.passes_of_validate h with
    | two count ruled first second => rwa [Operand.kind_withSize]

theorem second_isSome (h : i.Validated) (two : i.op.signature.operandCount = 2)
    (other : i.op.signature.rule ≠ .release) : i.op2.isSome := by
  obtain ⟨given, h⟩ := h
  generalize i.op1 = first, i.op2 = second at h ⊢
  cases Signature.passes_of_validate h with
  | none count => exact absurd ((count other).symm.trans two) (by decide)
  | one count => exact absurd (count.symm.trans two) (by decide)
  | two => rfl

/-- Rules that say nothing about the width of the first operand leave it one that is supported. -/
theorem supportedSize_first (h : i.Validated)
    (silent : i.op.signature.rule = .shiftCount ∨ i.op.signature.rule = .structural)
    {a : Operand} (first : i.op1 = some a) : Signature.supportedSize a.size := by
  obtain ⟨given, h⟩ := h
  rw [first] at h
  generalize i.op2 = second at h
  cases Signature.passes_of_validate h with
  | one count ruled kind eip supported =>
      rcases silent with rule | rule <;>
        (simp only [rule, Signature.applyUnaryRule] at ruled; grind)
  | two count ruled first second apart eip₁ eip₂ supported₁ supported₂ =>
      rcases silent with rule | rule <;>
        (simp only [rule, Signature.applyBinaryRule] at ruled; grind)

/-- The register `eip` is no operand. -/
theorem ne_eip (h : i.Validated) :
    i.op1 ≠ some (.register .eip) ∧ i.op2 ≠ some (.register .eip) := by
  obtain ⟨given, h⟩ := h
  refine ⟨fun first => ?_, fun second => ?_⟩
  · rw [first] at h
    generalize i.op2 = second, eip : Operand.register .eip = a at h
    cases Signature.passes_of_validate h with
    | @one a n count ruled kind other =>
        exact Operand.withSize_ne_register other n eip.symm
    | @two a b m n count ruled first second apart other =>
        exact Operand.withSize_ne_register other m eip.symm
  · rw [second] at h
    generalize i.op1 = first, eip : Operand.register .eip = b at h
    cases Signature.passes_of_validate h with
    | @two a b m n count ruled first second apart eip₁ other =>
        exact Operand.withSize_ne_register other n eip.symm

theorem haveWidths (h : i.Validated) (fixes : i.op.signature.fixesWidths) :
    Operands.HaveWidths (i.op1, i.op2) := by
  obtain ⟨given, h⟩ := h
  exact Signature.validate_haveWidths h fixes

/-- Operands that are to have one width have one. -/
theorem size_eq (h : i.Validated) (matching : Signature.matchesWidths i.op.signature.rule)
    {a b : Operand} (first : i.op1 = some a) (second : i.op2 = some b) : a.size = b.size := by
  obtain ⟨given, h⟩ := h
  rw [first, second] at h
  cases Signature.passes_of_validate h with
  | two count ruled =>
      obtain ⟨_, _, ⟨⟩, same⟩ := Signature.size_of_applyBinaryRule ruled matching
      exact same

/-- No instruction has two operands in memory. -/
theorem memory_once (h : i.Validated) {a b : Operand} (first : i.op1 = some a)
    (second : i.op2 = some b) : (a.isMemory && b.isMemory) = false := by
  obtain ⟨given, h⟩ := h
  rw [first, second] at h
  cases Signature.passes_of_validate h with
  | two count ruled kind₁ kind₂ apart => rwa [Operand.isMemory_withSize, Operand.isMemory_withSize]

theorem size_of_byteDestination (h : i.Validated)
    (byte : i.op.signature.rule = .byteDestination) (one : i.op.signature.operandCount = 1)
    {a : Operand} (first : i.op1 = some a) : a.size = 1 := by
  obtain ⟨given, h⟩ := h
  rw [first] at h
  generalize i.op2 = second at h
  cases Signature.passes_of_validate h with
  | one count ruled =>
      simp only [byte, Signature.applyUnaryRule] at ruled
      grind
  | two count => exact absurd (count.symm.trans one) (by decide)

end Instruction.Validated

end ReducedX86
