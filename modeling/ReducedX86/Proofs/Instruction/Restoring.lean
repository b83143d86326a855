import ReducedX86.Proofs.Instruction.Validation

/-!
The check of an instruction accepts what it has made, again.

The written form of an operand does not tell everything: immediates are written without a width, and
memory operands with one only if there is a word for it. Base and index of a memory operand may also
come back in the other order. The check finds the widths again, since it sees of a memory
operand nothing but its width.
-/
namespace ReducedX86

/-- An immediate as it is read, without a width. Other operands are left. -/
def Operand.unsized : Operand → Operand
  | immediate value _ => immediate value 0
  | o => o

/-- What the written form of a memory operand keeps of its width. -/
def MemoryOperand.spokenSize (size : Nat) : Nat := if Memory.isAccessSize size then size else 0

/-- The second operand is the first one again, as far as its written form can tell. -/
inductive Operand.Restores : Operand → Operand → Prop
  | register (r : Register) : Restores (.register r) (.register r)
  | immediate (value : Word) (size : Nat) : Restores (.immediate value size) (.immediate value size)
  | memory {m m' : MemoryOperand} (address : ∀ registers, m'.address registers = m.address registers)
      (size : m'.size = MemoryOperand.spokenSize m.size) : Restores (.memory m) (.memory m')

namespace MemoryOperand

theorem supportedSize_spokenSize (n : Nat) : Signature.supportedSize (spokenSize n) := by
  unfold spokenSize
  split
  · rename_i width
    simp only [Memory.isAccessSize, Bool.or_eq_true, beq_iff_eq] at width
    rcases width with (rfl | rfl) | rfl <;> rfl
  · rfl

theorem spokenSize_of_supportedSize {n : Nat} (supported : Signature.supportedSize n) :
    spokenSize n = n := by
  unfold spokenSize
  by_cases unknown : n = 0
  · subst unknown
    rfl
  · exact if_pos (Signature.isAccessSize_of_supportedSize supported unknown)

end MemoryOperand

/-! The rules, once more -/

namespace Signature

theorem validate_of_unary {s : Signature} {a : Operand} (count : s.operandCount = 1)
    (kind : a.kind ∈ s.first) (supported : s.rule ≠ .stateBlock → supportedSize a.size)
    (eip : a ≠ .register .eip) : s.validate (some a, none) = applyUnaryRule s.rule a := by
  have structure_ok (g : Bool) :
      s.checkStructure (some a, none) (s.rule ≠ .stateBlock) g = .ok () := by
    rw [checkStructure_eq_ok]
    simpa [checkKinds, count, kind, eip] using supported
  simp only [validate, structure_ok]
  simp

theorem validate_of_binary {s : Signature} {a b : Operand} (count : s.operandCount = 2)
    (kind₁ : a.kind ∈ s.first) (kind₂ : b.kind ∈ s.second)
    (apart : (a.isMemory && b.isMemory) = false)
    (supported₁ : s.rule ≠ .stateBlock → supportedSize a.size)
    (supported₂ : s.rule ≠ .stateBlock → s.rule ≠ .address → supportedSize b.size)
    (eip₁ : a ≠ .register .eip) (eip₂ : b ≠ .register .eip) :
    s.validate (some a, some b) = applyBinaryRule s.rule a b := by
  have structure_ok : s.checkStructure (some a, some b) (s.rule ≠ .stateBlock)
      (s.rule ≠ .stateBlock ∧ s.rule ≠ .address) = .ok () := by
    rw [checkStructure_eq_ok]
    simpa [checkKinds, count, kind₁, kind₂, apart, eip₁, eip₂] using ⟨supported₁, supported₂⟩
  simp only [validate, structure_ok]
  simp

@[simp] theorem isAccumulator_memory (m : MemoryOperand) : isAccumulator (.memory m) = false := rfl

theorem applyUnaryRule_again {rule : OperandRule} {m m' : MemoryOperand} {a : Operand}
    (h : applyUnaryRule rule (.memory m) = .ok (some a, none))
    (size : rule = .stateBlock ∨ m'.size = a.size) :
    applyUnaryRule rule (.memory m') = .ok (some (.memory m'), none) := by
  cases rule with
  | release =>
      simp only [applyUnaryRule, Operand.size_memory] at h ⊢
      have known : m'.size ≠ 0 := by grind [Operand.size_withSize, Operand.size_memory]
      simp [known]
  | sized | byteDestination | register32 | wideDestination | pushed | popped =>
      simp only [applyUnaryRule, Operand.size_memory, Operand.kind] at h ⊢
      grind [Operand.size_memory]
  | interruptNumber => cases h
  | _ => rfl

theorem applyBinaryRule_again_first {rule : OperandRule} {m m' : MemoryOperand} {b a' b' : Operand}
    (h : applyBinaryRule rule (.memory m) b = .ok (some a', some b'))
    (size : rule = .stateBlock ∨ m'.size = a'.size) :
    applyBinaryRule rule (.memory m') b = .ok (some (.memory m'), some b') := by
  cases rule with
  | sameSize =>
      -- The only rule that gives the first operand a width, which agrees with that of the second.
      simp only [applyBinaryRule, matchSizes_eq, Operand.size_memory] at h ⊢
      grind [Operand.size_memory, Operand.withSize_size, Operand.size_withSize]
  | _ =>
      simp only [applyBinaryRule, matchSizes_eq, Operand.size_memory, isAccumulator_memory] at h ⊢
      grind [Operand.size_memory]

theorem applyBinaryRule_again_second {rule : OperandRule} {m m' : MemoryOperand} {a a' b' : Operand}
    (h : applyBinaryRule rule a (.memory m) = .ok (some a', some b'))
    (size : rule = .stateBlock ∨ rule = .address ∨ m'.size = b'.size) :
    applyBinaryRule rule a (.memory m') = .ok (some a', some (.memory m')) := by
  cases rule with
  | sameSize | bitIndex | wideSameSize =>
      simp only [applyBinaryRule, matchSizes_eq, Operand.size_memory] at h ⊢
      grind [Operand.size_memory, Operand.withSize_size, Operand.size_withSize]
  | _ =>
      simp only [applyBinaryRule, Operand.size_memory] at h ⊢
      grind [Operand.size_memory, isAccumulator_memory]

theorem applyUnaryRule_supportedSize {rule : OperandRule} {a a' : Operand} {b' : Option Operand}
    (h : applyUnaryRule rule a = .ok (some a', b')) (supported : supportedSize a.size) :
    supportedSize a'.size := by
  have four : supportedSize (a.withSize 4).size := by
    rcases Operand.size_withSize_eq_or a 4 with same | same <;> rw [same]
    · exact supported
    · rfl
  obtain ⟨⟨⟩⟩ | ⟨⟨⟩, -⟩ := applyUnaryRule_cases h
  · exact supported
  · exact four

theorem applyBinaryRule_supportedSize {rule : OperandRule} {a b a' b' : Operand}
    (h : applyBinaryRule rule a b = .ok (some a', some b')) (supported : supportedSize a.size) :
    (rule = .address ∨ supportedSize b.size → supportedSize a'.size) ∧
      (supportedSize b.size → supportedSize b'.size) := by
  obtain ⟨-, ⟨⟩⟩ | ⟨matching, unknown, -, ⟨⟩⟩ | ⟨-, -, matched⟩ := applyBinaryRule_cases h
  · exact ⟨fun _ => supported, id⟩
  · rw [Operand.size_withSize unknown]
    refine ⟨fun either => either.resolve_left ?_, id⟩
    rintro rfl
    cases matching
  · obtain ⟨_, ⟨⟩, same⟩ := size_of_matchSizes matched
    exact ⟨fun _ => supported, fun _ => same ▸ supported⟩

/-- Validated operands have supported widths, or none, save where the rule does not look. -/
theorem validate_supportedSize {s : Signature} {os os' : Operands} (h : s.validate os = .ok os') :
    (s.rule = .stateBlock ∨ os'.1.all (supportedSize ·.size)) ∧
      (s.rule = .stateBlock ∨ s.rule = .address ∨ os'.2.all (supportedSize ·.size)) := by
  by_cases block : s.rule = .stateBlock
  · exact ⟨.inl block, .inl block⟩
  · cases passes_of_validate h with
    | none => exact ⟨.inr rfl, .inr (.inr rfl)⟩
    | one count ruled kind eip supported =>
        exact ⟨.inr (applyUnaryRule_supportedSize ruled (supported block)), .inr (.inr rfl)⟩
    | two count ruled kind₁ kind₂ apart eip₁ eip₂ supported₁ supported₂ =>
        obtain ⟨first, second⟩ := applyBinaryRule_supportedSize ruled (supported₁ block)
        by_cases address : s.rule = .address
        · exact ⟨.inr (first (.inl address)), .inr (.inl address)⟩
        · have supported := supported₂ block address
          exact ⟨.inr (first (.inr supported)), .inr (.inr (second supported))⟩

end Signature

/-! Reading the written form -/

namespace Operand

@[simp] theorem kind_unsized (o : Operand) : o.unsized.kind = o.kind := by cases o <;> rfl

theorem Restores.kind_eq {o o' : Operand} (restores : o.Restores o') : o'.kind = o.kind := by
  cases restores <;> rfl

/-- What is read of an operand that was given the width `n`: the operand before that, or another
memory operand. -/
theorem Restores.read {o o' : Operand} {n : Nat} (unsized : o.unsized = o)
    (restores : (o.withSize n).unsized.Restores o') :
    (o' = o ∧ (o.withSize n).Restores (o.withSize n)) ∨
      ∃ m m', o = .memory m ∧ o' = .memory m' ∧ m'.size = MemoryOperand.spokenSize n ∧
        (o.withSize n).Restores o' := by
  cases o with
  | register r =>
      cases restores
      exact .inl ⟨rfl, .register r⟩
  | immediate value size =>
      rw [← unsized]
      cases restores
      exact .inl ⟨rfl, .immediate value n⟩
  | label address => cases restores
  | memory m =>
      cases restores with
      | @memory _ m' address size => exact .inr ⟨m, m', rfl, rfl, size, .memory address size⟩

theorem Restores.supportedSize {o o' : Operand} (restores : o.unsized.Restores o') :
    Signature.supportedSize o'.size := by
  cases o with
  | register r => cases restores; cases r <;> rfl
  | immediate value size => cases restores; rfl
  | label address => cases restores
  | memory m =>
      cases restores with
      | memory address size =>
          rw [size_memory, size]
          exact MemoryOperand.supportedSize_spokenSize m.size

end Operand

namespace Signature

variable {s : Signature} {a b a' b' x y : Operand}

theorem validate_unary_restores (h : s.validate (some a, none) = .ok (some a', none))
    (unsized : a.unsized = a) (restores : a'.unsized.Restores x) :
    ∃ x', s.validate (some x, none) = .ok (some x', none) ∧ a'.Restores x' := by
  obtain ⟨sizes, -⟩ := validate_supportedSize h
  obtain ⟨count, kind, -, -, rule⟩ := validate_unary h
  obtain ⟨n, same⟩ := applyUnaryRule_resized rule
  cases same
  have width := restores.supportedSize
  rcases restores.read unsized with ⟨rfl, sized⟩ | ⟨m, m', rfl, rfl, size, restored⟩
  · exact ⟨_, h, sized⟩
  · refine ⟨.memory m', ?_, restored⟩
    rw [validate_of_unary (a := .memory m') count kind (fun _ => width) nofun]
    refine applyUnaryRule_again rule (sizes.imp_right fun supported => ?_)
    exact size.trans (MemoryOperand.spokenSize_of_supportedSize supported)

theorem validate_binary_restores (h : s.validate (some a, some b) = .ok (some a', some b'))
    (unsized₁ : a.unsized = a) (unsized₂ : b.unsized = b) (restores₁ : a'.unsized.Restores x)
    (restores₂ : b'.unsized.Restores y) :
    ∃ x' y', s.validate (some x, some y) = .ok (some x', some y') ∧ a'.Restores x' ∧
      b'.Restores y' := by
  obtain ⟨sizes₁, sizes₂⟩ := validate_supportedSize h
  obtain ⟨count, kind₁, kind₂, apart, -, -, eip₁, eip₂, rule⟩ := validate_binary h
  obtain ⟨k, n, same⟩ := applyBinaryRule_resized rule
  cases same
  have width₁ := restores₁.supportedSize
  have width₂ := restores₂.supportedSize
  rcases restores₁.read unsized₁ with ⟨rfl, sized₁⟩ | ⟨m, m', rfl, rfl, size, restored₁⟩
  · rcases restores₂.read unsized₂ with ⟨rfl, sized₂⟩ | ⟨m, m', rfl, rfl, size, restored₂⟩
    · exact ⟨_, _, h, sized₁, sized₂⟩
    · refine ⟨_, .memory m', ?_, sized₁, restored₂⟩
      rw [validate_of_binary (b := .memory m') count kind₁ kind₂ apart (fun _ => width₁)
        (fun _ _ => width₂) eip₁ nofun]
      refine applyBinaryRule_again_second rule (sizes₂.imp_right (Or.imp_right fun supported => ?_))
      exact size.trans (MemoryOperand.spokenSize_of_supportedSize supported)
  · rcases restores₂.read unsized₂ with ⟨rfl, sized₂⟩ | ⟨_, _, rfl, rfl, -, -⟩
    · refine ⟨.memory m', _, ?_, restored₁, sized₂⟩
      rw [validate_of_binary (a := .memory m') count kind₁ kind₂ apart (fun _ => width₁)
        (fun _ _ => width₂) nofun eip₂]
      refine applyBinaryRule_again_first rule (sizes₁.imp_right fun supported => ?_)
      exact size.trans (MemoryOperand.spokenSize_of_supportedSize supported)
    · cases apart

/-- What the check has made of operands as they were read passes it again when its written form is
read, and comes out restored. -/
theorem validate_restores {os os' : Operands} (h : s.validate os = .ok os')
    (unsized₁ : ∀ a ∈ os.1, a.unsized = a) (unsized₂ : ∀ b ∈ os.2, b.unsized = b)
    {x y : Option Operand} (first : Option.Rel (fun a x => a.unsized.Restores x) os'.1 x)
    (second : Option.Rel (fun b y => b.unsized.Restores y) os'.2 y) :
    ∃ x' y', s.validate (x, y) = .ok (x', y') ∧ Option.Rel Operand.Restores os'.1 x' ∧
      Option.Rel Operand.Restores os'.2 y' := by
  cases passes_of_validate h with
  | none =>
      cases first
      cases second
      exact ⟨none, none, h, .none, .none⟩
  | one =>
      cases first with
      | some restores =>
          cases second
          obtain ⟨x', again, restored⟩ := validate_unary_restores h (unsized₁ _ rfl) restores
          exact ⟨_, _, again, .some restored, .none⟩
  | two =>
      cases first with
      | some restores₁ =>
          cases second with
          | some restores₂ =>
              obtain ⟨x', y', again, restored₁, restored₂⟩ :=
                validate_binary_restores h (unsized₁ _ rfl) (unsized₂ _ rfl) restores₁ restores₂
              exact ⟨_, _, again, .some restored₁, .some restored₂⟩

end Signature

/-- Only three operators let a memory operand pass whose width is neither supported nor unknown. -/
theorem Instruction.Validated.passesWidth {i : Instruction} (valid : i.Validated) {m : MemoryOperand}
    (operand : i.op1 = some (.memory m) ∨ i.op2 = some (.memory m))
    (unsupported : ¬ Signature.supportedSize m.size) :
    i.op ∈ [.transfer .lea, .system .xsave, .system .xrstor] := by
  have all : ∀ op ∈ Operator.all, op.signature.rule = .stateBlock ∨ op.signature.rule = .address →
      op ∈ [.transfer .lea, .system .xsave, .system .xrstor] := by
    decide +kernel
  apply all i.op (Operator.mem_all i.op)
  obtain ⟨given, valid⟩ := valid
  obtain ⟨first, second⟩ := Signature.validate_supportedSize valid
  rcases operand with operand | operand
  · simp only [operand] at first
    exact .inl (first.resolve_right unsupported)
  · simp only [operand] at second
    exact second.imp_right (·.resolve_right unsupported)

end ReducedX86
