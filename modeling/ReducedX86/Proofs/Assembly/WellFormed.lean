import ReducedX86.Proofs.Assembly.TwoPass
import ReducedX86.Proofs.Entries
import ReducedX86.Proofs.Execution.Actions

/-!
What holds of every program that has been assembled.

Its instructions have the operands that they act on. Its repeat marks stand before instructions that
can be repeated. Its labels name instructions that no mark repeats, or the end of the program, so a jump
to a label never leaves a mark behind.
-/
namespace ReducedX86

open Assembly

namespace Program

variable {limit : Word} {program : Program}

/-- A repeat mark stands right before instruction number `n`. -/
def IsRepeated (program : Program) (n : Nat) : Prop :=
  ∃ j mark, n = j + 1 ∧ program.instructions[j]? = some mark ∧ mark.op.signature.repeats

/-- The address is that of an instruction that no mark repeats, or of the end. -/
def IsEntry (limit : Word) (program : Program) (address : Word) : Prop :=
  ∃ n ≤ program.instructions.size,
    address = instructionAddress limit n ∧ ¬ program.IsRepeated n

/-- What processors may rely on in a program whose instructions start at `limit`. -/
structure WellFormed (limit : Word) (program : Program) : Prop where
  /-- the operands are all that the executor needs, whatever the device -/
  acts : ∀ (δ : Type) [PortDevice δ], ∀ i ∈ program.instructions,
    i.op.action? (i.op1, i.op2) = some (i.execute : Execution δ Unit)
  eip : ∀ i ∈ program.instructions,
    i.op1 ≠ some (.register .eip) ∧ i.op2 ≠ some (.register .eip)
  body : ∀ n, program.IsRepeated n →
    ∃ i, program.instructions[n]? = some i ∧ i.op.signature.repeatable
  /-- a label that is an operand -/
  target : ∀ i ∈ program.instructions, ∀ address,
    some (.label address) = i.op1 ∨ some (.label address) = i.op2 → program.IsEntry limit address
  label : ∀ l ∈ program.artifacts.labels, program.IsEntry limit l.2
  addressToLabel : ∀ e ∈ program.artifacts.addressToLabel, program.IsEntry limit e.1

end Program

namespace Assembly

open TwoPass

/-! Marks and labels of what is read -/

/-- Every mark among the items, and one before them if `pending`, stands right before a statement that
can be repeated. -/
def Marked : Bool → List Item → Prop
  | pending, [] => pending = false
  | pending, .label _ _ :: rest => pending = false ∧ Marked false rest
  | pending, .statement op _ _ _ :: rest =>
      (pending → op.signature.repeatable) ∧ Marked op.signature.repeats rest

theorem marked_ofTokens (table : VariableTable) (rep : Option Position) (s : TokenStream)
    (complete : (Reading.ofTokens table rep s).stop = none) :
    Marked rep.isSome (Reading.ofTokens table rep s).items := by
  fun_induction Reading.ofTokens table rep s with
  | case1 rep =>
      rw [Option.map_eq_none_iff] at complete
      rw [complete]
      rfl
  | case6 rep t rest name token free fresh after ended ih =>
      have none_pending := Bool.not_eq_true _ |>.mp free
      have marked := ih complete
      rw [none_pending] at marked ⊢
      exact ⟨rfl, marked⟩
  | case10 rep t rest op token once allowed first second after found ih =>
      refine ⟨fun pending => ?_, ?_⟩
      · simp only [pending, Bool.and_true, Bool.not_eq_true] at once allowed
        simpa [once] using allowed
      · have marked := ih complete
        cases repeats : op.signature.repeats <;> rw [repeats] at marked <;> exact marked
  | case2 | case3 | case4 | case5 | case7 | case8 | case9 | case11 => cases complete

/-- A mark stands before instruction number `n`; `pending` says whether one stands before the first. -/
def marksBefore : Bool → List Instruction → Nat → Bool
  | pending, _, 0 => pending
  | _, [], _ + 1 => false
  | _, i :: rest, n + 1 => marksBefore i.op.signature.repeats rest n

@[simp] theorem marksBefore_zero (pending : Bool) (is : List Instruction) :
    marksBefore pending is 0 = pending := by
  cases is <;> rfl

theorem marksBefore_succ {pending : Bool} {is : List Instruction} {j : Nat} :
    marksBefore pending is (j + 1) ↔ ∃ mark, is[j]? = some mark ∧ mark.op.signature.repeats := by
  induction is generalizing pending j with
  | nil => simp [marksBefore]
  | cons i rest ih =>
      cases j with
      | zero => simp [marksBefore]
      | succ j => rw [marksBefore, ih, List.getElem?_cons_succ]

theorem isRepeated_iff {is : List Instruction} {artifacts : Artifacts} {n : Nat} :
    Program.IsRepeated ⟨is.toArray, artifacts⟩ n ↔ marksBefore false is n := by
  cases n with
  | zero => simp [Program.IsRepeated]
  | succ j => simp [Program.IsRepeated, marksBefore_succ]

section

variable {table : VariableTable} {labels : List (String × Word)} {declared : List String}
  {items : List Item} {is : List Instruction}

/-- An instruction behind a mark can be repeated. -/
theorem repeatable_of_marksBefore (made : instructions table labels declared items = .ok is)
    {pending : Bool} (marked : Marked pending items) {n : Nat} (before : marksBefore pending is n) :
    ∃ i, is[n]? = some i ∧ i.op.signature.repeatable := by
  fun_induction instructions table labels declared items generalizing is pending n with
  | case1 =>
      cases made
      cases n with
      | zero => exact absurd (Eq.symm marked |>.trans before) Bool.false_ne_true
      | succ n => cases before
  | case3 declared name p rest fresh ih =>
      obtain ⟨rfl, marked⟩ := marked
      exact ih made marked before
  | case6 declared op first second p rest i this js remaining ih =>
      cases made
      obtain ⟨repeatable, marked⟩ := marked
      rw [← (origin_of_instruction this).1] at repeatable marked
      cases n with
      | zero => exact ⟨i, rfl, repeatable before⟩
      | succ n => exact ih remaining marked before
  | case2 | case4 | case5 => cases made

/-- A label has the address of an instruction that no mark stands before, or of the end. -/
theorem address_of_mem_labelsFrom (made : instructions table labels declared items = .ok is)
    {pending : Bool} (marked : Marked pending items) {limit : Word} {start : Nat}
    {l : String × Word} (member : l ∈ labelsFrom limit start items) :
    ∃ n ≤ is.length, l.2 = instructionAddress limit (start + n) ∧ ¬ marksBefore pending is n := by
  fun_induction instructions table labels declared items generalizing is pending start with
  | case1 => cases member
  | case3 declared name p rest fresh ih =>
      obtain ⟨rfl, marked⟩ := marked
      rcases List.mem_cons.mp member with rfl | later
      · exact ⟨0, Nat.zero_le _, rfl, by simp⟩
      · exact ih made marked later
  | case6 declared op first second p rest i this js remaining ih =>
      cases made
      have marked := marked.2
      rw [← (origin_of_instruction this).1] at marked
      obtain ⟨n, within, placed, apart⟩ := ih remaining marked member
      refine ⟨n + 1, Nat.succ_le_succ within, ?_, apart⟩
      rw [placed, Nat.add_right_comm, Nat.add_assoc]
  | case2 | case4 | case5 => cases made

/-! Labels as operands -/

theorem ne_label_of_read {p : Position} {s after : TokenStream} {x : Spelled}
    (read : Spelled.read table p s = .ok (x, after)) (address : Word) :
    x ≠ .operand (.label address) := by
  rintro rfl
  rcases s with _ | e | ⟨⟨token, q⟩, rest⟩
  · cases read
  · cases read
  · simp only [Spelled.read] at read
    split at read
    case h_1 | h_2 => split at read <;> cases read
    all_goals cases read

theorem ne_label_of_readAll {op : Operator} {p : Position} {s after : TokenStream}
    {first second : Option Spelled}
    (read : Spelled.readAll table op p s = .ok ((first, second), after)) (address : Word) :
    first ≠ some (.operand (.label address)) ∧ second ≠ some (.operand (.label address)) := by
  have final {s after : TokenStream} {x : Spelled}
      (read : Spelled.read table p s = .ok (x, after)) : some x ≠ some (.operand (.label address)) :=
    fun same => ne_label_of_read read address (Option.some.inj same)
  unfold Spelled.readAll at read
  split at read
  · cases read
    simp
  · split at read
    · split at read <;> cases read
      all_goals simp
    · split at read
      · cases read
      · rename_i read₁
        split at read
        · cases read
          exact ⟨final read₁, by simp⟩
        · split at read
          · cases read
          · split at read
            · cases read
            · rename_i read₂
              cases read
              exact ⟨final read₁, final read₂⟩

theorem mem_of_addressOf? {name : String} {address : Word}
    (found : addressOf? labels name = some address) : ∃ l ∈ labels, l.2 = address := by
  obtain ⟨l, found, placed⟩ := Option.map_eq_some_iff.mp found
  exact ⟨l, List.mem_of_find?_eq_some found, placed⟩

/-- An operand that denotes a label denotes one that is declared. -/
theorem mem_of_denoted {x : Spelled} {address : Word} (written : x ≠ .operand (.label address))
    (known : unknown? table labels x = none) (denotes : denoted table labels x = .label address) :
    ∃ l ∈ labels, l.2 = address := by
  cases x with
  | operand o => exact absurd (congrArg Spelled.operand denotes) written
  | named name p =>
      rw [denoted] at denotes
      cases found : table.find? name with
      | some v =>
          rw [found] at denotes
          cases denotes
      | none =>
          rw [found] at denotes
          cases placed : addressOf? labels name with
          | none => simp [unknown?, VariableTable.contains, found, placed] at known
          | some a =>
              rw [placed] at denotes
              cases denotes
              exact mem_of_addressOf? placed

theorem eq_label_of_withSize {o : Operand} {n : Nat} {address : Word}
    (same : o.withSize n = .label address) : o = .label address := by
  cases o with
  | label _ => exact same
  | register _ | memory _ | immediate _ _ => cases same

/-- A label that is an operand of an instruction is declared. -/
theorem mem_of_target {first second : Option Spelled} {i : Instruction}
    (written : (Item.statement i.op first second i.position).Written table)
    (known : unknownIn? table labels (.statement i.op first second i.position) = none)
    (made : instruction table labels i.op first second i.position = .ok i) {address : Word}
    (target : some (.label address) = i.op1 ∨ some (.label address) = i.op2) :
    ∃ l ∈ labels, l.2 = address := by
  obtain ⟨s, after, read⟩ := written
  obtain ⟨written₁, written₂⟩ := ne_label_of_readAll read address
  obtain ⟨known₁, known₂⟩ := Option.or_eq_none_iff.mp known
  obtain ⟨m, n, resized⟩ := Signature.validate_resized (validate_of_instruction made)
  obtain ⟨eq₁, eq₂⟩ := Prod.mk.inj resized
  have declared {x : Option Spelled} {k : Nat} (written : x ≠ some (.operand (.label address)))
      (known : x.bind (unknown? table labels) = none)
      (denotes : some (.label address) = (x.map (denoted table labels)).map (·.withSize k)) :
      ∃ l ∈ labels, l.2 = address := by
    cases x with
    | none => cases denotes
    | some x =>
        have label := eq_label_of_withSize (Option.some.inj denotes).symm
        exact mem_of_denoted (fun same => written (congrArg some same)) known label
  rcases target with first | second
  · exact declared written₁ known₁ (first.trans eq₁)
  · exact declared written₂ known₂ (second.trans eq₂)

end

/-- An address is shown with the last label that was declared there. -/
theorem keepsLast_addressToLabel (setting : Setting) (labels : List (String × Word))
    (is : Array Instruction) :
    Entries.KeepsLast (labels.map Prod.swap) (artifacts setting labels is).addressToLabel := by
  have keeps := Entries.keepsLast_foldl (labels.map Prod.swap)
  rwa [List.foldl_map] at keeps

/-- Addresses that are shown with a label are addresses of labels. -/
theorem mem_of_mem_addressToLabel {setting : Setting} {labels : List (String × Word)}
    {is : Array Instruction} {e : Word × String}
    (member : e ∈ (artifacts setting labels is).addressToLabel) : ∃ l ∈ labels, l.2 = e.1 := by
  have keeps := keepsLast_addressToLabel setting labels is
  have key := (keeps.keys e.1).mp (List.mem_map_of_mem member)
  rw [List.map_map, List.mem_map] at key
  exact key

end Assembly

namespace Program

variable {source : String} {table : VariableTable} {limit : Word} {program : Program}

theorem mod_eq_of_instructionAddress_eq {m n : Nat}
    (same : instructionAddress limit m = instructionAddress limit n) :
    4 * m % UInt32.size = 4 * n % UInt32.size := by
  have offsets := UInt32.add_right_inj limit |>.mp same
  have numbers := congrArg UInt32.toNat offsets
  rwa [UInt32.toNat_ofNat', UInt32.toNat_ofNat'] at numbers

/-- A jump to a label does not end behind a mark. -/
theorem WellFormed.entry_ne_body (wellFormed : WellFormed limit program)
    (small : 4 * program.instructions.size ≤ UInt32.size) {n : Nat} (repeated : program.IsRepeated n)
    {address : Word} (entry : program.IsEntry limit address) :
    address ≠ instructionAddress limit n := by
  obtain ⟨m, within, rfl, apart⟩ := entry
  obtain ⟨body, found, -⟩ := wellFormed.body n repeated
  have inside : n < program.instructions.size := (Array.getElem?_eq_some_iff.mp found).1
  obtain ⟨j, -, positive, -⟩ := id repeated
  intro same
  have cut := mod_eq_of_instructionAddress_eq same
  simp only [UInt32.size] at small cut
  have eq : m = n := by omega
  exact apart (eq ▸ repeated)

/-- Whatever text is assembled against whatever variables and limit, what comes out is well formed: its
executors have all the operands that they act on, `eip` is none of them, every mark has a body that can
be repeated, and every label is the address of an instruction that is no body, or of the end. -/
theorem wellFormed_of_assemble (assembled : assemble source table limit = .ok program) :
    program.WellFormed limit ∧
      (4 * program.instructions.size ≤ UInt32.size → ∀ n, program.IsRepeated n → ∀ address,
        program.IsEntry limit address → address ≠ instructionAddress limit n) := by
  have valid := validated_of_assemble assembled
  have marked := marked_ofTokens table none (TokenStream.ofSource source)
  have written := written_of_mem_ofTokens table none (TokenStream.ofSource source)
  obtain ⟨items, is, read, made, known, rfl⟩ := reading_of_assemble assembled
  rw [read] at marked written
  have marked := marked rfl
  have entry {l : String × Word} (declared : l ∈ TwoPass.labelsFrom limit 0 items) :
      IsEntry limit ⟨is.toArray, Assembly.artifacts ⟨table, limit⟩ (TwoPass.labelsFrom limit 0 items)
        is.toArray⟩ l.2 := by
    obtain ⟨n, within, placed, apart⟩ := address_of_mem_labelsFrom made marked declared
    rw [Nat.zero_add] at placed
    exact ⟨n, within, placed, mt isRepeated_iff.mp apart⟩
  have wellFormed : WellFormed limit ⟨is.toArray,
      Assembly.artifacts ⟨table, limit⟩ (TwoPass.labelsFrom limit 0 items) is.toArray⟩ :=
    { acts := by
        intro δ _ i member
        obtain ⟨given, checked⟩ := valid i member
        obtain ⟨x, acts⟩ := Operator.exists_action (δ := δ) checked
        rw [acts, Instruction.execute, Operator.execute_of_action acts]
      eip := fun i member => (valid i member).ne_eip
      body := by
        intro n repeated
        obtain ⟨i, found, repeatable⟩ :=
          repeatable_of_marksBefore made marked (isRepeated_iff.mp repeated)
        exact ⟨i, by rw [List.getElem?_toArray, found], repeatable⟩
      target := by
        intro i member address target
        obtain ⟨first, second, stated, resolved⟩ :=
          mem_instructions made i (List.mem_toArray.mp member)
        obtain ⟨l, declared, rfl⟩ :=
          mem_of_target (written _ stated) (known _ stated) resolved target
        exact entry declared
      label := fun l declared => entry declared
      addressToLabel := by
        intro e member
        obtain ⟨l, declared, placed⟩ := mem_of_mem_addressToLabel member
        rw [← placed]
        exact entry declared }
  exact ⟨wellFormed, fun small n repeated address => wellFormed.entry_ne_body small repeated⟩

/-- A label before a mark is no label of its body. -/
theorem wellFormed_of_assemble_loop :
    ∃ program, assemble "again: rep stosb\njmp again" {} 20 = .ok program ∧
      program.WellFormed 20 ∧ program.IsRepeated 1 ∧
      (program.artifacts.labels.map Prod.snd = [20]) ∧
      ∀ address, program.IsEntry 20 address → address ≠ 24 := by
  have runs : (assemble "again: rep stosb\njmp again" {} 20).toOption.any (fun program =>
      program.instructions.toList.map (·.op.signature.repeats) = [true, false, false] ∧
        program.artifacts.labels.map Prod.snd = [20]) := by decide +kernel
  cases assembled : assemble "again: rep stosb\njmp again" {} 20 with
  | error e =>
      rw [assembled] at runs
      cases runs
  | ok program =>
      rw [assembled] at runs
      obtain ⟨marks, labels⟩ := of_decide_eq_true runs
      obtain ⟨wellFormed, apart⟩ := wellFormed_of_assemble assembled
      have size : program.instructions.size = 3 := by
        simpa using congrArg List.length marks
      have repeated : program.IsRepeated 1 := by
        have inside : 0 < program.instructions.size := by omega
        refine ⟨0, program.instructions[0], rfl, Array.getElem?_eq_getElem inside, ?_⟩
        have first := congrArg (·[0]?) marks
        simpa [inside] using first
      exact ⟨program, rfl, wellFormed, repeated, labels,
        apart (by simp [size, UInt32.size]) 1 repeated⟩

end Program

end ReducedX86
