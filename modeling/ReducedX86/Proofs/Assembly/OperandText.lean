import ReducedX86.Proofs.Assembly.Source
import ReducedX86.Proofs.Assembly.Vocabulary
import ReducedX86.Proofs.Instruction.Restoring

/-!
Operands are read as they are written.

The written form of a memory operand is the mark of its width and, in brackets, a sum of its
registers and its displacement. The sum is an addressable expression whose value is the address of
the operand; so it is read, and the operand that it is read as has that address.
-/
namespace ReducedX86

open Assembly

namespace MemoryOperand

/-- The registers in the written form of a memory operand, as products. -/
def registerProducts (m : MemoryOperand) : List Product :=
  (m.base.toList.map fun r => Product.single (.register r)) ++
    m.index.toList.map fun r =>
      if m.scale = .one then .single (.register r)
      else .times (.register r) (.single (.number m.scale.factor))

/-- The summands in the written form of a memory operand, as products. -/
def products (m : MemoryOperand) : List Product :=
  if m.displacement != 0 || m.registerProducts.isEmpty then
    m.registerProducts ++ [.single (.number m.displacement)]
  else m.registerProducts

variable (m : MemoryOperand)

theorem products_ne_nil : m.products ≠ [] := by
  unfold products
  split
  · simp
  · rename_i present
    simp at present
    exact present.2

variable {m} in
theorem mem_products {p : Product} (member : p ∈ m.products) :
    (∃ r, p = .single (.register r)) ∨
      (∃ r, p = .times (.register r) (.single (.number m.scale.factor))) ∨
      p = .single (.number m.displacement) := by
  have either : p ∈ m.registerProducts ∨ p = .single (.number m.displacement) := by
    unfold products at member
    split at member
    · simpa using member
    · exact .inl member
  rcases either with register | rfl
  · rw [registerProducts, List.mem_append, List.mem_map, List.mem_map] at register
    rcases register with ⟨r, -, rfl⟩ | ⟨r, -, rfl⟩
    · exact .inl ⟨r, rfl⟩
    · split
      · exact .inl ⟨r, rfl⟩
      · exact .inr (.inl ⟨r, rfl⟩)
  · exact .inr (.inr rfl)

theorem products_sound : ∀ p ∈ m.products, p.Sound {} := by
  intro p member
  rcases mem_products member with ⟨r, rfl⟩ | ⟨r, rfl⟩ | rfl <;>
    simp [Product.Sound, Product.factors, Factor.isDeclared, Factor.register?]

theorem products_scaled :
    ∀ p ∈ m.products, p.multiplies → p.scale {} % UInt32.size ∈ [1, 2, 4, 8] := by
  intro p member multiplies
  rcases mem_products member with ⟨r, rfl⟩ | ⟨r, rfl⟩ | rfl
  · simp at multiplies
  · cases scale : m.scale <;> simp [Factor.constant?, Scale.factor]
  · simp at multiplies

theorem countP_products {f : Product → Bool}
    (constant : f (.single (.number m.displacement)) = false) :
    m.products.countP f = m.registerProducts.countP f := by
  unfold products
  split
  · simp [constant]
  · rfl

theorem products_fit : Fits m.products := by
  constructor
  · rw [countP_products m (by simp [Product.hasRegister, Factor.register?])]
    refine Nat.le_trans List.countP_le_length ?_
    have base := Option.length_toList_le (o := m.base)
    have index := Option.length_toList_le (o := m.index)
    rw [registerProducts, List.length_append, List.length_map, List.length_map]
    omega
  · have base : (m.base.toList.map fun r => Product.single (.register r)).countP
        Product.multiplies = 0 := by
      cases m.base <;> simp
    rw [countP_products m (by simp), registerProducts, List.countP_append, base, Nat.zero_add]
    refine Nat.le_trans List.countP_le_length ?_
    rw [List.length_map]
    exact Option.length_toList_le

theorem sum_products (registers : RegisterFile) :
    (m.products.map (Product.value {} registers)).sum =
      (m.registerProducts.map (Product.value {} registers)).sum + m.displacement.toNat := by
  have constant : (Product.single (.number m.displacement)).value {} registers =
      m.displacement.toNat := by
    simp [Product.value_eq, Factor.register?, Factor.constant?]
  unfold products
  split
  · simp [constant]
  · rename_i absent
    simp at absent
    simp [absent.1]

/-- The summands make up the address. -/
theorem value_products (registers : RegisterFile) :
    UInt32.ofNat (m.products.map (Product.value {} registers)).sum = m.address registers := by
  have base : ((m.base.toList.map fun r => Product.single (.register r)).map
      (Product.value {} registers)).sum = (m.base.elim 0 registers.get).toNat := by
    cases m.base <;> simp [Product.value_eq]
  have index : UInt32.ofNat ((m.index.toList.map fun r =>
      if m.scale = .one then Product.single (.register r)
      else .times (.register r) (.single (.number m.scale.factor))).map
        (Product.value {} registers)).sum =
      m.index.elim 0 fun r => registers.get r * m.scale.factor := by
    cases m.index with
    | none => rfl
    | some r =>
        by_cases plain : m.scale = .one
        · simp [plain, Product.value_eq, Scale.factor]
        · simp [plain, Product.value_eq, UInt32.ofNat_mul, Factor.constant?, Factor.register?]
  rw [sum_products, registerProducts, List.map_append, List.sum_append, UInt32.ofNat_add,
    UInt32.ofNat_add, base, index, UInt32.ofNat_toNat, UInt32.ofNat_toNat, address]
  cases m.base <;> cases m.index <;> simp <;> ac_rfl

end MemoryOperand

namespace Assembly

/-! The width before the brackets -/

/-- The mark of a width, if there is a word for it. -/
def widthTokens : Nat → List Token
  | 1 => [.width .byte, .ptr]
  | 2 => [.width .word, .ptr]
  | 4 => [.width .dword, .ptr]
  | _ => []

theorem lexes_widthMark (word : String) {w : Width} (keyword : word ∈ keywords)
    (name : Token.ofName word = .width w) :
    Lexes (word ++ " ptr ").toList [.width w, .ptr] := by
  have width : Lexes word.toList [.width w] :=
    name ▸ .ofVocabulary (List.mem_append_left _ keyword)
  have pointer : Lexes "ptr".toList [.ptr] :=
    (by decide +kernel : Token.ofName "ptr" = .ptr) ▸
      .ofVocabulary (List.mem_append_left _ (by decide))
  rw [String.toList_append]
  exact width.append (.blank (pointer.append (.blank .nil) .blank)) .blank

theorem lexes_sizeText : ∀ size : Nat,
    Lexes (MemoryOperand.sizeText size).toList (widthTokens size)
  | 1 => lexes_widthMark "byte" (by decide) (by decide +kernel)
  | 2 => lexes_widthMark "word" (by decide) (by decide +kernel)
  | 4 => lexes_widthMark "dword" (by decide) (by decide +kernel)
  | 0 | 3 | _ + 5 => .nil

/-- A token that starts a memory operand, after which come its width and the tokens in brackets. -/
def Opens (s : TokenStream) (size : Nat) (after : TokenStream) : Prop :=
  ∃ t rest, s = .token t rest ∧ (t.token = .openBracket ∨ ∃ w, t.token = .width w) ∧
    sizeMark t rest = .ok (size, after)

theorem opens_of_width {w : Width} {s after : TokenStream}
    (spelled : s.Begins [.width w, .ptr, .openBracket] after) : Opens s w.bytes after := by
  rcases spelled with _ | ⟨width, _ | ⟨pointer, _ | ⟨opens, ⟨⟩⟩⟩⟩
  refine ⟨_, _, rfl, .inr ⟨w, width⟩, ?_⟩
  simp only [sizeMark, width, expect, if_pos pointer, if_pos opens]

theorem opens_of_bracket {s after : TokenStream} (spelled : s.Begins [.openBracket] after) :
    Opens s 0 after := by
  rcases spelled with _ | ⟨opens, ⟨⟩⟩
  exact ⟨_, _, rfl, .inl opens, by simp only [sizeMark, opens]⟩

theorem opens_of_begins {s after : TokenStream} : ∀ {size : Nat},
    s.Begins (widthTokens size ++ [.openBracket]) after →
      Opens s (MemoryOperand.spokenSize size) after
  | 1, spelled | 2, spelled | 4, spelled => opens_of_width spelled
  | 0, spelled | 3, spelled | _ + 5, spelled => opens_of_bracket spelled

/-! The sum in the brackets -/

theorem lexes_scaled (r : Register) {s : Scale} (scaled : s ≠ .one) :
    Lexes (r.name ++ " * " ++ toString s.factor.toNat).toList
      [.register r, .multiply, .number s.factor] := by
  rw [String.append_assoc, String.toList_append, String.toList_append]
  exact (lexes_register r).append (.blank (.punctuation rfl (.blank (lexes_factor scaled)))) .blank

theorem lexes_summands (m : MemoryOperand) :
    List.Forall₂ (fun text p => Lexes text.toList p.tokens) m.summands m.products := by
  have registers : List.Forall₂ (fun text p => Lexes text.toList p.tokens)
      (m.base.toList.map Register.name ++ m.index.toList.map fun r =>
        if m.scale = .one then r.name else r.name ++ " * " ++ toString m.scale.factor.toNat)
      m.registerProducts := by
    apply List.rel_append
    · cases m.base with
      | none => exact .nil
      | some r => exact .cons (lexes_register r) .nil
    · cases m.index with
      | none => exact .nil
      | some r =>
          refine .cons ?_ .nil
          by_cases plain : m.scale = .one
          · simp only [if_pos plain]
            exact lexes_register r
          · simp only [if_neg plain]
            exact lexes_scaled r plain
  have displacement : List.Forall₂ (fun (text : String) (p : Product) => Lexes text.toList p.tokens)
      ["0x" ++ m.displacement.shortHex] [.single (.number m.displacement)] :=
    .cons (lexes_hex m.displacement) .nil
  simp only [MemoryOperand.summands, MemoryOperand.products]
  generalize m.registerProducts = products at registers ⊢
  generalize m.base.toList.map Register.name ++ m.index.toList.map _ = texts at registers ⊢
  have same : texts.isEmpty = products.isEmpty := by cases registers <;> rfl
  rw [same]
  split
  · exact List.rel_append registers displacement
  · exact registers

theorem lexes_sum {texts : List String} {products : List Product}
    (each : List.Forall₂ (fun text p => Lexes text.toList p.tokens) texts products)
    (nonempty : products ≠ []) :
    ∃ e : Expression, e.products = products ∧ Lexes (" + ".intercalate texts).toList e.tokens := by
  induction each with
  | nil => exact absurd rfl nonempty
  | @cons text p texts products first others ih =>
      cases others with
      | nil => exact ⟨.single p, rfl, by rwa [String.intercalate_singleton]⟩
      | cons second others =>
          obtain ⟨e, same, lexes⟩ := ih (List.cons_ne_nil _ _)
          refine ⟨.plus p e, by rw [Expression.products, same], ?_⟩
          rw [String.intercalate_cons_cons, String.append_assoc, String.toList_append,
            String.toList_append]
          exact first.append (.blank (.punctuation rfl (.blank lexes))) .blank

/-! Operands -/

/-- A memory operand is read with the same address, and with its width if that has been written. -/
theorem read_memory (m : MemoryOperand) :
    ∃ tokens, Lexes m.text.toList tokens ∧ ∀ p {s after : TokenStream}, s.Begins tokens after →
      ∃ m', Spelled.read {} p s = .ok (.operand (.memory m'), after) ∧
        Operand.Restores (.memory m) (.memory m') := by
  obtain ⟨e, same, lexes⟩ := lexes_sum (lexes_summands m) m.products_ne_nil
  have addressable : e.Addressable {} := by
    constructor <;> rw [same]
    · exact m.products_sound
    · exact m.products_fit
    · exact m.products_scaled
  refine ⟨widthTokens m.size ++ .openBracket :: (e.tokens ++ [.closeBracket]), ?_, ?_⟩
  · have brackets : m.text.toList = (MemoryOperand.sizeText m.size).toList ++
        '[' :: ((" + ".intercalate m.summands).toList ++ [']']) := by
      rw [MemoryOperand.text, String.toList_append, String.toList_append, String.toList_append,
        List.append_assoc, List.append_assoc]
      rfl
    rw [brackets]
    exact (lexes_sizeText m.size).append
      (.punctuation rfl (lexes.append (.punctuation rfl .nil) (.punctuation rfl)))
      (.punctuation rfl)
  · intro p s after spelled
    rw [List.append_cons, TokenStream.begins_append_iff] at spelled
    obtain ⟨inside, marked, spelled⟩ := spelled
    obtain ⟨t, rest, rfl, starts, size⟩ := opens_of_begins marked
    have accepted : Accepts (memoryOperand {} t rest) (e.Addressable {}) _ :=
      memoryOperand_accepts size spelled
    cases read : memoryOperand {} t rest with
    | error error => exact absurd addressable (accepted.of_error read)
    | ok answer =>
        obtain ⟨m', after'⟩ := answer
        obtain ⟨-, rfl, size, address⟩ := accepted.of_ok read
        refine ⟨m', ?_, .memory (fun registers => ?_) size⟩
        · rcases starts with token | ⟨w, token⟩ <;> simp only [Spelled.read, token, read]
        · rw [address, Expression.value, same]
          exact m.value_products registers

/-- Every operand but a label is read of its written form, immediates without a width. -/
theorem read_text {o : Operand} (other : o.kind ≠ .label) :
    ∃ tokens, Lexes o.text.toList tokens ∧ ∀ p {s after : TokenStream}, s.Begins tokens after →
      ∃ o', Spelled.read {} p s = .ok (.operand o', after) ∧ o.unsized.Restores o' := by
  cases o with
  | label address => exact absurd rfl other
  | register r =>
      refine ⟨_, lexes_register r, ?_⟩
      rintro p s after (_ | ⟨token, ⟨⟩⟩)
      exact ⟨.register r, by simp only [Spelled.read, token], .register r⟩
  | immediate value size =>
      refine ⟨_, lexes_hex value, ?_⟩
      rintro p s after (_ | ⟨token, ⟨⟩⟩)
      exact ⟨.immediate value 0, by simp only [Spelled.read, token], .immediate value 0⟩
  | memory m =>
      obtain ⟨tokens, lexes, read⟩ := read_memory m
      refine ⟨tokens, lexes, fun p s after spelled => ?_⟩
      obtain ⟨m', found, restores⟩ := read p spelled
      exact ⟨.memory m', found, restores⟩

end Assembly

end ReducedX86
