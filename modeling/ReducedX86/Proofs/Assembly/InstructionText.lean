import ReducedX86.Proofs.Assembly.OperandText
import ReducedX86.Proofs.Assembly.TwoPass

/-!
The text of an instruction is assembled to the instruction.

The text is one statement. Its operands are read without the widths that the check finds, just as the
operands of the instruction had been read before the check made it; so the check makes the same of
them again.
-/
namespace ReducedX86.Assembly

/-! Reading a statement -/

section Statement

variable {table : VariableTable} {op : Operator} {p : Position} {s after : TokenStream}

theorem ofTokens_statement {t : Lexeme} {first second : Option Spelled}
    (token : t.token = .operator op) (once : op.signature.repeats = false)
    (read : Spelled.readAll table op t.position s = .ok ((first, second), .done)) :
    Reading.ofTokens table none (.token t s) =
      { items := [.statement op first second t.position] } := by
  have ended : Reading.ofTokens table none .done = {} := by
    rw [Reading.ofTokens]
    rfl
  rw [Reading.ofTokens]
  simp only [token, once, Option.isSome_none, Bool.and_false, Bool.false_and, Bool.not_false,
    Bool.false_eq_true, if_false]
  split
  · rename_i failed
    cases read.symm.trans failed
  · rename_i found
    cases read.symm.trans found
    rw [ended]
    rfl

theorem readAll_nothing (nothing : op.signature.operandCount = 0 ∨ op = .control .ret) :
    Spelled.readAll table op p .done = .ok ((none, none), .done) := by
  unfold Spelled.readAll
  by_cases zero : op.signature.operandCount = 0
  · rw [if_pos zero]
  · rw [if_neg zero, if_pos (nothing.resolve_left zero)]

theorem number_of_read {value : Word} {size : Nat}
    (read : Spelled.read table p s = .ok (.operand (.immediate value size), after)) :
    size = 0 ∧ ∃ q, s = .token ⟨.number value, q⟩ after := by
  rcases s with _ | e | ⟨⟨token, q⟩, rest⟩
  · cases read
  · cases read
  · simp only [Spelled.read] at read
    split at read
    case h_3 =>
      rename_i number
      cases number
      cases read
      exact ⟨rfl, q, rfl⟩
    case h_1 | h_2 => split at read <;> cases read
    all_goals cases read

theorem readAll_one {o : Operand} (one : op.signature.operandCount = 1)
    (immediate : op = .control .ret → o.kind = .immediate)
    (read : Spelled.read table p s = .ok (.operand o, after)) :
    Spelled.readAll table op p s = .ok ((some (.operand o), none), after) := by
  unfold Spelled.readAll
  rw [if_neg (by omega)]
  by_cases ret : op = .control .ret
  · rw [if_pos ret]
    cases o with
    | immediate value size =>
        obtain ⟨rfl, q, rfl⟩ := number_of_read read
        rfl
    | _ => cases immediate ret
  · rw [if_neg ret, read]
    exact if_pos one

theorem readAll_two {o o' : Operand} {middle behind : TokenStream}
    (two : op.signature.operandCount = 2)
    (first : Spelled.read table p s = .ok (.operand o, middle))
    (comma : middle.Begins [.comma] behind)
    (second : Spelled.read table p behind = .ok (.operand o', after)) :
    Spelled.readAll table op p s = .ok ((some (.operand o), some (.operand o')), after) := by
  have several : op ≠ .control .ret := by
    rintro rfl
    cases two
  have one : ¬ op.signature.operandCount = 1 := by omega
  rcases comma with _ | ⟨comma, ⟨⟩⟩
  unfold Spelled.readAll
  rw [if_neg (by omega), if_neg several, first]
  simp only [if_neg one, expect, if_pos comma, second]

end Statement

theorem eq_ret_of_release {op : Operator} (h : op.signature.rule = .release) :
    op = .control .ret := by
  have all : ∀ op ∈ Operator.all, op.signature.rule = .release → op = .control .ret := by
    decide +kernel
  exact all op (Operator.mem_all op) h

/-! The text as a statement -/

section Text

variable {op : Operator} {a b : Operand} {position : Position}

theorem reading_nothing (position : Position) (once : op.signature.repeats = false)
    (nothing : op.signature.operandCount = 0 ∨ op = .control .ret) :
    ∃ p, Reading.ofTokens {} none
        (TokenStream.ofSource (Instruction.text ⟨op, none, none, position⟩)) =
      { items := [.statement op none none p] } := by
  have lexes : Lexes (Instruction.text ⟨op, none, none, position⟩).toList [.operator op] := by
    simp only [Instruction.text, String.append_empty]
    exact lexes_operator op
  have spelled := begins_of_lexes lexes
  generalize TokenStream.ofSource _ = s at spelled ⊢
  rcases spelled with _ | ⟨token, ⟨⟩⟩
  exact ⟨_, ofTokens_statement token once (readAll_nothing nothing)⟩

theorem reading_one (once : op.signature.repeats = false) (one : op.signature.operandCount = 1)
    (kind : a.kind ∈ op.signature.first) (unnamed : a.kind ≠ .label) :
    ∃ x p, Reading.ofTokens {} none
        (TokenStream.ofSource (Instruction.text ⟨op, some a, none, position⟩)) =
      { items := [.statement op (some (.operand x)) none p] } ∧ a.unsized.Restores x := by
  obtain ⟨tokens, lexes, read⟩ := read_text unnamed
  have lexes : Lexes (Instruction.text ⟨op, some a, none, position⟩).toList
      (.operator op :: tokens) := by
    simp only [Instruction.text, String.append_empty, String.toList_append]
    exact (lexes_operator op).append (.blank lexes) .blank
  have spelled := begins_of_lexes lexes
  generalize TokenStream.ofSource _ = s at spelled ⊢
  rcases spelled with _ | ⟨token, follows⟩
  rename_i t rest
  obtain ⟨x, found, restores⟩ := read t.position follows
  have immediate (ret : op = .control .ret) : x.kind = .immediate := by
    subst ret
    rw [restores.kind_eq, Operand.kind_unsized]
    exact List.mem_singleton.mp kind
  exact ⟨x, _, ofTokens_statement token once (readAll_one one immediate found), restores⟩

theorem reading_two (once : op.signature.repeats = false) (two : op.signature.operandCount = 2)
    (unnamed₁ : a.kind ≠ .label) (unnamed₂ : b.kind ≠ .label) :
    ∃ x y p, Reading.ofTokens {} none
        (TokenStream.ofSource (Instruction.text ⟨op, some a, some b, position⟩)) =
      { items := [.statement op (some (.operand x)) (some (.operand y)) p] } ∧
      a.unsized.Restores x ∧ b.unsized.Restores y := by
  obtain ⟨tokens₁, lexes₁, read₁⟩ := read_text unnamed₁
  obtain ⟨tokens₂, lexes₂, read₂⟩ := read_text unnamed₂
  have lexes : Lexes (Instruction.text ⟨op, some a, some b, position⟩).toList
      (.operator op :: (tokens₁ ++ .comma :: tokens₂)) := by
    simp only [Instruction.text, String.append_assoc, String.toList_append]
    exact (lexes_operator op).append (.blank (lexes₁.append (.punctuation rfl (.blank lexes₂))
      (.punctuation rfl))) .blank
  have spelled := begins_of_lexes lexes
  generalize TokenStream.ofSource _ = s at spelled ⊢
  rcases spelled with _ | ⟨token, follows⟩
  rename_i t rest
  rw [List.append_cons, TokenStream.begins_append_iff] at follows
  obtain ⟨behind, follows, spelled₂⟩ := follows
  obtain ⟨middle, spelled₁, comma⟩ := TokenStream.begins_append_iff.mp follows
  obtain ⟨x, found₁, restores₁⟩ := read₁ t.position spelled₁
  obtain ⟨y, found₂, restores₂⟩ := read₂ t.position spelled₂
  exact ⟨x, y, _, ofTokens_statement token once (readAll_two two found₁ comma found₂),
    restores₁, restores₂⟩

end Text

/-- The text of a validated instruction is one statement, with the operands as they are read. -/
theorem reading_text {i : Instruction} (valid : i.Validated) (once : i.op.signature.repeats = false)
    (first : ∀ a ∈ i.op1, a.kind ≠ .label) (second : ∀ b ∈ i.op2, b.kind ≠ .label) :
    ∃ x y p, Reading.ofTokens {} none (TokenStream.ofSource i.text) =
        { items := [.statement i.op (x.map .operand) (y.map .operand) p] } ∧
      Option.Rel (fun a x => a.unsized.Restores x) i.op1 x ∧
      Option.Rel (fun b y => b.unsized.Restores y) i.op2 y := by
  obtain ⟨op, op1, op2, position⟩ := i
  obtain ⟨given, h⟩ := valid
  dsimp only at h first second once ⊢
  cases Signature.passes_of_validate h with
  | none count =>
      have nothing : op.signature.operandCount = 0 ∨ op = .control .ret := by
        by_cases release : op.signature.rule = .release
        · exact .inr (eq_ret_of_release release)
        · exact .inl (count release)
      obtain ⟨p, read⟩ := reading_nothing position once nothing
      exact ⟨none, none, p, read, .none, .none⟩
  | @one a n count ruled kind =>
      have kind : (a.withSize n).kind ∈ op.signature.first := by rwa [Operand.kind_withSize]
      obtain ⟨x, p, read, restores⟩ := reading_one once count kind (first _ rfl)
      exact ⟨some x, none, p, read, .some restores, .none⟩
  | two count =>
      obtain ⟨x, y, p, read, restores₁, restores₂⟩ :=
        reading_two once count (first _ rfl) (second _ rfl)
      exact ⟨some x, some y, p, read, .some restores₁, .some restores₂⟩

/-! What the check was given -/

section Given

variable {table : VariableTable} {op : Operator} {p : Position} {s after : TokenStream}

/-- The operand, unless it is a name, has no width from a sibling. -/
def Spelled.Unsized (x : Spelled) : Prop := ∀ o, x = .operand o → o.unsized = o

theorem unsized_of_read {x : Spelled} (read : Spelled.read table p s = .ok (x, after)) :
    x.Unsized := by
  rintro o rfl
  cases o with
  | immediate value size =>
      rw [(number_of_read read).1]
      rfl
  | _ => rfl

theorem unsized_of_readAll {first second : Option Spelled}
    (read : Spelled.readAll table op p s = .ok ((first, second), after)) :
    (∀ x ∈ first, x.Unsized) ∧ ∀ x ∈ second, x.Unsized := by
  unfold Spelled.readAll at read
  split at read
  · cases read
    simp
  · split at read
    · split at read
      · cases read
        simp [Spelled.Unsized, Operand.unsized]
      · cases read
      · cases read
        simp
    · split at read
      · cases read
      · rename_i found₁
        split at read
        · cases read
          simp [unsized_of_read found₁]
        · split at read
          · cases read
          · split at read
            · cases read
            · rename_i found₂
              cases read
              simp [unsized_of_read found₁, unsized_of_read found₂]

theorem unsized_denoted {labels : List (String × Word)} {x : Option Spelled}
    (unsized : ∀ x' ∈ x, x'.Unsized) :
    ∀ o ∈ x.map (TwoPass.denoted table labels), o.unsized = o := by
  intro o denoted
  obtain ⟨x', given, rfl⟩ := Option.mem_map.mp denoted
  cases x' with
  | operand o => exact unsized _ given o rfl
  | named name p =>
      rw [TwoPass.denoted]
      split <;> rfl

end Given

/-! Assembling a statement -/

theorem assemble_of_statement {source : String} {op : Operator} {x y op1 op2 : Option Operand}
    {p : Position}
    (read : Reading.ofTokens {} none (TokenStream.ofSource source) =
      { items := [.statement op (x.map .operand) (y.map .operand) p] })
    (valid : op.signature.validate (x, y) = .ok (op1, op2)) (limit : Word) :
    ∃ q, Program.assemble source {} limit = .ok q ∧ q.instructions = #[⟨op, op1, op2, p⟩] := by
  have complete (z : Option Operand) (labels : List (String × Word)) :
      (z.map Spelled.operand).map (TwoPass.denoted {} labels) = z ∧
        (z.map Spelled.operand).bind (TwoPass.unknown? {} labels) = none := by
    cases z <;> exact ⟨rfl, rfl⟩
  refine ⟨⟨#[⟨op, op1, op2, p⟩], artifacts ⟨{}, limit⟩ [] #[⟨op, op1, op2, p⟩]⟩, ?_, rfl⟩
  rw [Program.assemble, ofTokens_eq_ofReading, read]
  simp only [TwoPass.ofReading, TwoPass.instructions, TwoPass.instruction, complete, valid,
    List.findSome?_cons, TwoPass.unknownIn?]
  rfl

/-- The written form of an instruction of an assembled program, alone and without variables, is
assembled to one instruction, which restores it. Labels are written as addresses, and a repeat mark
wants an instruction after it, so these are left out. Memory operands are the same by their
addresses, since base and index may change places; a width that there is no word for is lost, and
only three operators let such a width pass. -/
theorem assemble_text {source : String} {table : VariableTable} {limit : Word} {program : Program}
    (assembled : Program.assemble source table limit = .ok program) {i : Instruction}
    (member : i ∈ program.instructions) (other : i.op ≠ .rep)
    (first : ∀ a ∈ i.op1, a.kind ≠ .label) (second : ∀ b ∈ i.op2, b.kind ≠ .label) :
    (∀ limit, ∃ q j, Program.assemble i.text {} limit = .ok q ∧ q.instructions = #[j] ∧
      j.op = i.op ∧ Option.Rel Operand.Restores i.op1 j.op1 ∧
      Option.Rel Operand.Restores i.op2 j.op2) ∧
    ∀ m, i.op1 = some (.memory m) ∨ i.op2 = some (.memory m) → m.size ≠ 0 →
      Memory.isAccessSize m.size = false →
      i.op ∈ [.transfer .lea, .system .xsave, .system .xrstor] := by
  obtain ⟨labels, x, y, ⟨s, after, written⟩, made⟩ := written_of_assemble assembled i member
  have valid := validate_of_instruction made
  constructor
  · intro limit
    have once : i.op.signature.repeats = false :=
      Bool.eq_false_iff.mpr fun mark => other (eq_rep_of_repeats mark)
    obtain ⟨x', y', p, read, restores₁, restores₂⟩ := reading_text ⟨_, valid⟩ once first second
    obtain ⟨unsized₁, unsized₂⟩ := unsized_of_readAll written
    obtain ⟨op1, op2, again, restored₁, restored₂⟩ :=
      Signature.validate_restores valid (unsized_denoted unsized₁) (unsized_denoted unsized₂)
        restores₁ restores₂
    obtain ⟨q, same, only⟩ := assemble_of_statement read again limit
    exact ⟨q, _, same, only, rfl, restored₁, restored₂⟩
  · intro m operand known unsaid
    apply Instruction.Validated.passesWidth ⟨_, valid⟩ operand
    intro supported
    have width := Signature.isAccessSize_of_supportedSize supported known
    rw [unsaid] at width
    cases width

/-- Base and index have changed places in the first assembling, and do so again in the second. -/
theorem assemble_text_add :
    let i : Instruction :=
      { op := .arithmetic .add
        op1 := some (.memory { base := some .esi, index := some .ebx, size := 2 })
        op2 := some (.register .ax) }
    i.text = "add word ptr [esi + ebx], ax" ∧ ∀ limit,
      ∃ q j, Program.assemble i.text {} limit = .ok q ∧ q.instructions = #[j] ∧ j.op = i.op ∧
        Option.Rel Operand.Restores i.op1 j.op1 ∧ Option.Rel Operand.Restores i.op2 j.op2 := by
  intro i
  refine ⟨by decide +kernel, ?_⟩
  have instructions :
      (Program.assemble "add [ebx + esi], ax" {} 1040).toOption.map (·.instructions) = some #[i] := by
    decide +kernel
  cases assembled : Program.assemble "add [ebx + esi], ax" {} 1040 with
  | error e =>
      rw [assembled] at instructions
      cases instructions
  | ok program =>
      rw [assembled] at instructions
      have only : program.instructions = #[i] := Option.some.inj instructions
      have member : i ∈ program.instructions := by simp [only]
      have first : ∀ a ∈ i.op1, a.kind ≠ .label := by simp [i, Operand.kind]
      have second : ∀ b ∈ i.op2, b.kind ≠ .label := by simp [i, Operand.kind]
      exact (assemble_text assembled member (by decide) first second).1

end ReducedX86.Assembly
