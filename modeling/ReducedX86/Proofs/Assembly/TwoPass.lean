import ReducedX86.Proofs.Assembly.Source
import ReducedX86.Proofs.Instruction.Validation

/-!
Assembling in two passes.

The first pass gives every label the address of the instruction after it. With all labels known,
the second pass resolves the operands, checks the statements and makes the instructions. The
assembler has one pass only: it checks statements whose labels are still to come, and puts their
addresses in afterwards. Both give the same program, or the same error, for every text.
-/
namespace ReducedX86.Assembly

namespace TwoPass

/-- The labels of items that start with instruction number `i`. -/
def labelsFrom (limit : Word) (i : Nat) : List Item → List (String × Word)
  | [] => []
  | .label name _ :: rest => (name, instructionAddress limit i) :: labelsFrom limit i rest
  | .statement _ _ _ _ :: rest => labelsFrom limit (i + 1) rest

/-- The address of a label, whose name may be written in any case. -/
def addressOf? (labels : List (String × Word)) (name : String) : Option Word :=
  (labels.find? fun l => VariableTable.key l.1 == VariableTable.key name).map Prod.snd

/-- What an operand stands for; a name that nothing has passes for a label here. -/
def denoted (table : VariableTable) (labels : List (String × Word)) : Spelled → Operand
  | .operand o => o
  | .named name _ =>
      match table.find? name with
      | some v => v.operand
      | none => .label ((addressOf? labels name).getD 0)

def unknown? (table : VariableTable) (labels : List (String × Word)) :
    Spelled → Option AssemblyError
  | .operand _ => none
  | .named name p =>
      if table.contains name || (addressOf? labels name).isSome then none
      else some ((AssemblyErrorKind.unknownLabel name).at p)

def unknownIn? (table : VariableTable) (labels : List (String × Word)) :
    Item → Option AssemblyError
  | .label _ _ => none
  | .statement _ first second _ =>
      (first.bind (unknown? table labels)).or (second.bind (unknown? table labels))

/-- The instruction of a statement, if its operands pass the check. -/
def instruction (table : VariableTable) (labels : List (String × Word)) (op : Operator)
    (first second : Option Spelled) (p : Position) : Except AssemblyError Instruction :=
  let resolved := (first.map (denoted table labels), second.map (denoted table labels))
  match op.signature.validate resolved with
  | .error e => .error ((AssemblyErrorKind.validation e).at p)
  | .ok (op1, op2) => .ok ⟨op, op1, op2, p⟩

/-- The instructions of items before which labels with the keys `declared` stand. -/
def instructions (table : VariableTable) (labels : List (String × Word)) (declared : List String) :
    List Item → Except AssemblyError (List Instruction)
  | [] => .ok []
  | .label name p :: rest =>
      if VariableTable.key name ∈ declared then
        .error ((AssemblyErrorKind.duplicateLabel name).at p)
      else instructions table labels (VariableTable.key name :: declared) rest
  | .statement op first second p :: rest =>
      match instruction table labels op first second p with
      | .error e => .error e
      | .ok i =>
          match instructions table labels declared rest with
          | .error e => .error e
          | .ok is => .ok (i :: is)

/-- The program of a reading. An unknown name is an error only if there is no other. -/
def ofReading (setting : Setting) (r : Reading) : Except AssemblyError Program :=
  let labels := labelsFrom setting.limit 0 r.items
  match instructions setting.table labels [] r.items with
  | .error e => .error e
  | .ok is =>
      match r.stop.or (r.items.findSome? (unknownIn? setting.table labels)) with
      | some e => .error e
      | none => .ok ⟨is.toArray, artifacts setting labels is.toArray⟩

/-- Assembles a text against allocated variables and a memory limit in two passes. -/
def assemble (source : String) (table : VariableTable) (limit : Word) :
    Except AssemblyError Program :=
  ofReading ⟨table, limit⟩ (Reading.ofTokens table none (TokenStream.ofSource source))

end TwoPass

open TwoPass

variable {labels : List (String × Word)} {known : List (String × Word)}

/-! Looking up labels -/

theorem addressOf?_append (ls ms : List (String × Word)) (name : String) :
    addressOf? (ls ++ ms) name = (addressOf? ls name).or (addressOf? ms name) := by
  simp only [addressOf?, List.find?_append]
  cases List.find? _ ls <;> rfl

def Agrees (known labels : List (String × Word)) : Prop :=
  ∀ name, known.lookup (VariableTable.key name) = addressOf? labels name

theorem Agrees.declare (h : Agrees known labels) {name : String} (address : Word)
    (fresh : known.lookup (VariableTable.key name) = none) :
    Agrees ((VariableTable.key name, address) :: known) (labels ++ [(name, address)]) := by
  intro other
  rw [addressOf?_append, ← h other, List.lookup_cons]
  by_cases same : VariableTable.key other = VariableTable.key name
  · rw [same, fresh]
    simp [addressOf?, same]
  · have apart : ¬ VariableTable.key name = VariableTable.key other := fun e => same e.symm
    simp [addressOf?, beq_eq_false_iff_ne.mpr same, beq_eq_false_iff_ne.mpr apart]

/-! Working off forward uses -/

theorem resolve_append (known : List (String × Word)) (us vs : List ForwardUse)
    (is : Array Instruction) :
    resolve known (us ++ vs) is =
      match resolve known us is with
      | .error e => .error e
      | .ok js => resolve known vs js := by
  induction us generalizing is with
  | nil => rfl
  | cons u us ih =>
      simp only [List.cons_append, resolve]
      split
      · rfl
      · exact ih _

theorem modify_push_of_lt {α : Type} (xs : Array α) (x : α) (f : α → α) {n : Nat}
    (h : n < xs.size) : (xs.push x).modify n f = (xs.modify n f).push x := by
  apply Array.ext
  · simp
  · grind

theorem modify_push_size {α : Type} (xs : Array α) (x : α) (f : α → α) :
    (xs.push x).modify xs.size f = xs.push (f x) := by
  apply Array.ext
  · simp
  · grind

/-- Uses of earlier instructions leave the last instruction alone. -/
theorem resolve_push (us : List ForwardUse) (is : Array Instruction) (i : Instruction)
    (earlier : ∀ u ∈ us, u.instruction < is.size) :
    resolve known us (is.push i) = (resolve known us is).map (·.push i) := by
  induction us generalizing is with
  | nil => rfl
  | cons u us ih =>
      simp only [resolve]
      split
      · rfl
      · rw [modify_push_of_lt _ _ _ (earlier u List.mem_cons_self)]
        apply ih
        intro v hv
        rw [Array.size_modify]
        exact earlier v (List.mem_cons_of_mem u hv)

namespace Reference

/-- What a reference stands for in the end. -/
def settled (labels : List (String × Word)) : Reference → Operand
  | operand o => o
  | forward name _ => .label ((addressOf? labels name).getD 0)

def unknown? (labels : List (String × Word)) : Reference → Option AssemblyError
  | operand _ => none
  | forward name p =>
      if (addressOf? labels name).isSome then none
      else some ((AssemblyErrorKind.unknownLabel name).at p)

/-- Where the label of a provisional operand goes in the end. -/
def shift (labels : List (String × Word)) : Option Reference → Word → Word
  | some (forward name _) => fun _ => (addressOf? labels name).getD 0
  | _ => id

/-- The instruction after working off the use of one of its operands. -/
def patched (labels : List (String × Word)) (second : Bool) :
    Option Reference → Instruction → Instruction
  | some (forward name p), i =>
      ForwardUse.patch ⟨name, p, 0, second⟩ ((addressOf? labels name).getD 0) i
  | _, i => i

theorem settled_eq_relabel (labels : List (String × Word)) (r : Option Reference) :
    r.map (settled labels) = (r.map provisional).map (Operand.relabel (shift labels r)) := by
  rcases r with _ | o | ⟨name, p⟩
  · rfl
  · exact congrArg some (Operand.relabel_id o).symm
  · rfl

theorem resolve_use (agrees : Agrees known labels) (r : Option Reference) (second : Bool)
    (is : Array Instruction) (i : Instruction) :
    resolve known (r.bind (·.use? is.size second)).toList (is.push i) =
      match r.bind (unknown? labels) with
      | some e => .error e
      | none => .ok (is.push (patched labels second r i)) := by
  rcases r with _ | o | ⟨name, p⟩
  · rfl
  · rfl
  · have found := agrees name
    simp only [Option.bind_some, use?, Option.toList_some, resolve, found, unknown?]
    cases declared : addressOf? labels name with
    | none => rfl
    | some address => simp [modify_push_size, patched, ForwardUse.patch, declared]

/-- A forward use is patched into an operand that validation left a label. -/
theorem patched_validated (labels : List (String × Word)) (first second : Option Reference)
    (op : Operator) (p : Position) (m n : Nat) :
    let op1 := (first.map provisional).map (·.withSize m)
    let op2 := (second.map provisional).map (·.withSize n)
    patched labels true second (patched labels false first ⟨op, op1, op2, p⟩) =
      ⟨op, op1.map (Operand.relabel (shift labels first)),
        op2.map (Operand.relabel (shift labels second)), p⟩ := by
  rcases first with _ | o | ⟨name, q⟩ <;> rcases second with _ | o' | ⟨name', q'⟩ <;>
    simp [patched, shift, provisional, ForwardUse.patch]

end Reference

/-- The draft `d` will come to the instructions `is` or to the error `unknown`, when all labels
are known to be `labels`. -/
structure Draft.Promises (labels : List (String × Word)) (d : Draft) (is : List Instruction)
    (unknown : Option AssemblyError) : Prop where
  size : d.instructions.size = is.length
  uses_lt : ∀ u ∈ d.uses, u.instruction < d.instructions.size
  resolve : ∀ known, Agrees known labels →
    resolve known d.uses d.instructions =
      match unknown with
      | some e => .error e
      | none => .ok is.toArray

theorem Draft.Promises.emit {d : Draft} {is : List Instruction} {unknown : Option AssemblyError}
    (h : d.Promises labels is unknown) (first second : Option Reference) (op : Operator)
    (p : Position) (op1 op2 : Option Operand) {m n : Nat}
    (h₁ : op1 = (first.map Reference.provisional).map (·.withSize m))
    (h₂ : op2 = (second.map Reference.provisional).map (·.withSize n)) :
    Draft.Promises labels
      { d with
        uses := d.uses ++ ((first.bind (·.use? d.instructions.size false)).toList ++
          (second.bind (·.use? d.instructions.size true)).toList)
        instructions := d.instructions.push ⟨op, op1, op2, p⟩ }
      (is ++ [⟨op, op1.map (Operand.relabel (Reference.shift labels first)),
        op2.map (Operand.relabel (Reference.shift labels second)), p⟩])
      (unknown.or ((first.bind (Reference.unknown? labels)).or
        (second.bind (Reference.unknown? labels)))) where
  size := by simp [h.size]
  uses_lt := by
    have note (r : Option Reference) (b : Bool) :
        ∀ u ∈ (r.bind (·.use? d.instructions.size b)).toList, u.instruction = d.instructions.size := by
      rcases r with _ | o | ⟨name, q⟩ <;> simp [Reference.use?]
    intro u hu
    simp only [List.mem_append] at hu
    rw [Array.size_push]
    rcases hu with hu | hu | hu
    · exact Nat.lt_succ_of_lt (h.uses_lt u hu)
    · rw [note first false u hu]; exact Nat.lt_succ_self _
    · rw [note second true u hu]; exact Nat.lt_succ_self _
  resolve := by
    intro known agrees
    have size : d.instructions.size = is.toArray.size := by simp [h.size]
    rw [resolve_append, resolve_push _ _ _ h.uses_lt, h.resolve known agrees, size]
    cases unknown with
    | some e => rfl
    | none =>
        simp only [Except.map, resolve_append, Reference.resolve_use agrees, Option.none_or]
        cases first.bind (Reference.unknown? labels) with
        | some e => rfl
        | none =>
            simp only [Reference.resolve_use agrees, Option.none_or]
            cases second.bind (Reference.unknown? labels) with
            | some e => rfl
            | none =>
                simp only [h₁, h₂, Reference.patched_validated]
                simp

theorem validate_of_repeats {op : Operator} (mark : op.signature.repeats) :
    op.signature.validate (none, none) = .ok (none, none) := by
  rw [eq_rep_of_repeats mark]
  rfl

section Placed

-- The labels of `d` are among all labels, and each keeps its address.
variable {setting : Setting} {d : Draft} (agrees : Agrees d.known d.labels)
  (later : ∀ name a, addressOf? d.labels name = some a → addressOf? labels name = some a)
include agrees later

theorem settled_place (x : Spelled) :
    (x.place setting d).settled labels = denoted setting.table labels x ∧
      (x.place setting d).unknown? labels = unknown? setting.table labels x := by
  cases x with
  | operand o => exact ⟨rfl, rfl⟩
  | named name p =>
      have lookedUp := agrees name
      cases found : setting.table.find? name with
      | some v =>
          simp [Spelled.place, resolveName, denoted, unknown?, VariableTable.contains, found,
            Reference.settled, Reference.unknown?]
      | none =>
          cases declared : addressOf? d.labels name with
          | none =>
              simp [Spelled.place, resolveName, denoted, unknown?, VariableTable.contains, found,
                lookedUp, declared, Reference.settled, Reference.unknown?]
          | some a =>
              simp [Spelled.place, resolveName, denoted, unknown?, VariableTable.contains, found,
                lookedUp, declared, later name a declared, Reference.settled, Reference.unknown?]

theorem instruction_eq (op : Operator) (first second : Option Spelled) (p : Position) :
    let r₁ := first.map (·.place setting d)
    let r₂ := second.map (·.place setting d)
    instruction setting.table labels op first second p =
      match op.signature.validate (r₁.map Reference.provisional, r₂.map Reference.provisional) with
      | .error e => .error ((AssemblyErrorKind.validation e).at p)
      | .ok (op1, op2) =>
          .ok ⟨op, op1.map (Operand.relabel (Reference.shift labels r₁)),
            op2.map (Operand.relabel (Reference.shift labels r₂)), p⟩ := by
  intro r₁ r₂
  have settled (x : Option Spelled) :
      x.map (denoted setting.table labels) =
        ((x.map (·.place setting d)).map Reference.provisional).map
          (Operand.relabel (Reference.shift labels (x.map (·.place setting d)))) := by
    rw [← Reference.settled_eq_relabel, Option.map_map]
    exact Option.map_congr fun y _ => (settled_place agrees later y).1.symm
  have resolved : (first.map (denoted setting.table labels), second.map (denoted setting.table labels)) =
      Operands.relabel (Reference.shift labels r₁) (Reference.shift labels r₂)
        (r₁.map Reference.provisional, r₂.map Reference.provisional) :=
    Prod.ext (settled first) (settled second)
  simp only [instruction, resolved, Operator.validate_relabel]
  cases op.signature.validate (r₁.map Reference.provisional, r₂.map Reference.provisional) <;> rfl

theorem unknownIn?_eq (op : Operator) (first second : Option Spelled) (p : Position) :
    unknownIn? setting.table labels (.statement op first second p) =
      ((first.map (·.place setting d)).bind (Reference.unknown? labels)).or
        ((second.map (·.place setting d)).bind (Reference.unknown? labels)) := by
  have settled (x : Option Spelled) :
      (x.map (·.place setting d)).bind (Reference.unknown? labels) =
        x.bind (unknown? setting.table labels) := by
    cases x with
    | none => rfl
    | some y => exact (settled_place agrees later y).2
  rw [settled, settled, unknownIn?]

variable (setting) in
/-- Taking a statement makes the same of it as the second pass, later addresses apart. -/
theorem take_statement {is : List Instruction} {unknown : Option AssemblyError}
    (promises : d.Promises labels is unknown) {op : Operator} {first second : Option Spelled}
    {p : Position} (plain : (Item.statement op first second p).Plain) :
    match instruction setting.table labels op first second p with
    | .error e => d.take setting (.statement op first second p) = .error e
    | .ok i => ∃ d', d.take setting (.statement op first second p) = .ok d' ∧
        d'.known = d.known ∧ d'.labels = d.labels ∧
        d'.instructions.size = d.instructions.size + 1 ∧
        d'.Promises labels (is ++ [i])
          (unknown.or (unknownIn? setting.table labels (.statement op first second p))) := by
  have checked (given : Operands)
      (h : given = ((first.map (·.place setting d)).map Reference.provisional,
        (second.map (·.place setting d)).map Reference.provisional)) :
      (if op.signature.repeats then .ok given else op.signature.validate given) =
        op.signature.validate given := by
    split
    · rename_i mark
      obtain ⟨rfl, rfl⟩ := plain mark
      rw [h]
      exact (validate_of_repeats mark).symm
    · rfl
  rw [instruction_eq agrees later, unknownIn?_eq agrees later]
  simp only [Draft.take, Draft.emit, checked _ rfl]
  cases accepted : op.signature.validate
      ((first.map (·.place setting d)).map Reference.provisional,
        (second.map (·.place setting d)).map Reference.provisional) with
  | error e => rfl
  | ok os =>
      obtain ⟨m, n, resized⟩ := Signature.validate_resized accepted
      obtain ⟨op1, op2⟩ := os
      obtain ⟨h₁, h₂⟩ := Prod.mk.inj resized
      exact ⟨_, rfl, rfl, rfl, Array.size_push .., promises.emit _ _ op p op1 op2 h₁ h₂⟩

end Placed

/-- The draft with a label at the address of its next instruction. -/
def Draft.withLabel (d : Draft) (limit : Word) (name : String) : Draft :=
  { d with
    known := (VariableTable.key name, d.nextAddress limit) :: d.known
    labels := d.labels ++ [(name, d.nextAddress limit)] }

theorem take_label (setting : Setting) (d : Draft) (name : String) (p : Position) :
    d.take setting (.label name p) =
      if VariableTable.key name ∈ d.known.map Prod.fst then
        .error ((AssemblyErrorKind.duplicateLabel name).at p)
      else
        .ok (d.withLabel setting.limit name) := by
  simp only [Draft.take, Draft.declare, Entries.isSome_lookup_iff_mem, Draft.withLabel]

/-- The items that are left make of a draft what the second pass makes of them. -/
def Draft.Assembles (setting : Setting) (labels : List (String × Word)) (d : Draft)
    (is : List Instruction) (unknown : Option AssemblyError) (rest : List Item) : Prop :=
  match TwoPass.instructions setting.table labels (d.known.map Prod.fst) rest with
  | .error e => d.takeAll setting rest = .error e
  | .ok js => ∃ d', d.takeAll setting rest = .ok d' ∧ d'.labels = labels ∧
      Agrees d'.known labels ∧
      d'.Promises labels (is ++ js)
        (unknown.or (rest.findSome? (unknownIn? setting.table labels)))

section Assembles

variable {setting : Setting} {labels : List (String × Word)} {d : Draft} {is : List Instruction}
  {unknown : Option AssemblyError} {rest : List Item}

theorem assembles_label {name : String} {p : Position}
    (left : VariableTable.key name ∉ d.known.map Prod.fst →
      (d.withLabel setting.limit name).Assembles setting labels is unknown rest) :
    d.Assembles setting labels is unknown (.label name p :: rest) := by
  have skipped : (Item.label name p :: rest).findSome? (unknownIn? setting.table labels) =
      rest.findSome? (unknownIn? setting.table labels) := rfl
  rw [Draft.Assembles, instructions, Draft.takeAll, take_label, skipped]
  by_cases again : VariableTable.key name ∈ d.known.map Prod.fst
  · simp only [if_pos again]
  · simp only [if_neg again]
    exact left again

theorem assembles_statement {op : Operator} {first second : Option Spelled} {p : Position}
    (agrees : Agrees d.known d.labels)
    (later : ∀ name a, addressOf? d.labels name = some a → addressOf? labels name = some a)
    (promises : d.Promises labels is unknown) (plain : (Item.statement op first second p).Plain)
    (left : ∀ (d' : Draft) (i : Instruction), d'.known = d.known → d'.labels = d.labels →
      d'.instructions.size = d.instructions.size + 1 →
      d'.Promises labels (is ++ [i])
        (unknown.or (unknownIn? setting.table labels (.statement op first second p))) →
      d'.Assembles setting labels (is ++ [i])
        (unknown.or (unknownIn? setting.table labels (.statement op first second p))) rest) :
    d.Assembles setting labels is unknown (.statement op first second p :: rest) := by
  have unknowns : (Item.statement op first second p :: rest).findSome?
      (unknownIn? setting.table labels) =
      (unknownIn? setting.table labels (.statement op first second p)).or
        (rest.findSome? (unknownIn? setting.table labels)) := by
    rw [List.findSome?_cons]
    cases unknownIn? setting.table labels (.statement op first second p) <;> rfl
  have step := take_statement setting agrees later promises plain
  rw [Draft.Assembles, instructions, Draft.takeAll, unknowns, ← Option.or_assoc]
  cases made : instruction setting.table labels op first second p with
  | error e =>
      rw [made] at step
      rw [step]
  | ok i =>
      rw [made] at step
      obtain ⟨d', taken, known, kept, size, promises'⟩ := step
      have left := left d' i known kept size promises'
      rw [Draft.Assembles, known] at left
      rw [taken]
      cases remaining : instructions setting.table labels (d.known.map Prod.fst) rest with
      | error e =>
          rw [remaining] at left
          exact left
      | ok js =>
          rw [remaining] at left
          simp only [List.append_assoc, List.singleton_append] at left
          exact left

end Assembles

theorem takeAll_eq (setting : Setting) (labels : List (String × Word)) (rest : List Item)
    (plain : ∀ i ∈ rest, i.Plain) (d : Draft) {is : List Instruction}
    {unknown : Option AssemblyError}
    (agrees : Agrees d.known d.labels)
    (all : labels = d.labels ++ labelsFrom setting.limit d.instructions.size rest)
    (promises : d.Promises labels is unknown) :
    d.Assembles setting labels is unknown rest := by
  induction rest generalizing d is unknown with
  | nil =>
      have complete : labels = d.labels := by simpa [labelsFrom] using all
      subst complete
      exact ⟨d, rfl, rfl, agrees, by simpa using promises⟩
  | cons item rest ih =>
      have plain_rest (i : Item) (hi : i ∈ rest) : i.Plain := plain i (List.mem_cons_of_mem item hi)
      cases item with
      | label name p =>
          apply assembles_label
          intro again
          have fresh : d.known.lookup (VariableTable.key name) = none :=
            Option.not_isSome_iff_eq_none.mp (mt Entries.isSome_lookup_iff_mem.mp again)
          have all' : labels = (d.withLabel setting.limit name).labels ++
              labelsFrom setting.limit d.instructions.size rest := by
            rw [all, Draft.withLabel, List.append_assoc]
            rfl
          exact ih plain_rest (d.withLabel setting.limit name)
            (agrees.declare (d.nextAddress setting.limit) fresh) all'
            ⟨promises.size, promises.uses_lt, promises.resolve⟩
      | statement op first second p =>
          have later (name : String) (a : Word) (h : addressOf? d.labels name = some a) :
              addressOf? labels name = some a := by
            rw [all, addressOf?_append, h, Option.some_or]
          apply assembles_statement agrees later promises (plain _ List.mem_cons_self)
          intro d' i known kept size promises'
          exact ih plain_rest d' (known ▸ kept ▸ agrees) (by rw [kept, size]; exact all) promises'

/-- The assembler gives the program of what it has read. -/
theorem ofTokens_eq_ofReading (setting : Setting) (tokens : TokenStream) :
    Assembly.ofTokens setting tokens =
      ofReading setting (Reading.ofTokens setting.table none tokens) := by
  rw [Assembly.ofTokens, assembleFrom_eq_takeReading, Draft.takeReading, ofReading]
  have plain := plain_of_mem_ofTokens setting.table none tokens
  generalize Reading.ofTokens setting.table none tokens = r at plain ⊢
  have nothing : Draft.Promises (labelsFrom setting.limit 0 r.items) {} [] none :=
    ⟨rfl, by simp, fun _ _ => rfl⟩
  have taken := takeAll_eq setting _ r.items plain {} (fun _ => rfl) rfl nothing
  simp only [Draft.Assembles, List.map_nil, List.nil_append, Option.none_or] at taken
  generalize labelsFrom setting.limit 0 r.items = labels at taken ⊢
  cases made : instructions setting.table labels [] r.items with
  | error e =>
      rw [made] at taken
      rw [taken]
  | ok is =>
      rw [made] at taken
      obtain ⟨d, taken, named, agrees, promises⟩ := taken
      rw [taken]
      cases r.stop with
      | some e => rfl
      | none =>
          simp only [promises.resolve d.known agrees, named, Option.none_or]
          cases r.items.findSome? (unknownIn? setting.table labels) <;> rfl

theorem origin_of_instruction {table : VariableTable} {op : Operator} {first second : Option Spelled}
    {p : Position} {i : Instruction} (made : instruction table labels op first second p = .ok i) :
    i.op = op ∧ i.position = p := by
  simp only [instruction] at made
  split at made
  · cases made
  · cases made
    exact ⟨rfl, rfl⟩

theorem mem_instructions {table : VariableTable} {declared : List String}
    {items : List Item} {is : List Instruction}
    (h : instructions table labels declared items = .ok is) :
    ∀ i ∈ is, ∃ first second, .statement i.op first second i.position ∈ items ∧
      instruction table labels i.op first second i.position = .ok i := by
  fun_induction instructions table labels declared items generalizing is with
  | case1 => cases h; simp
  | case2 => cases h
  | case3 declared name p rest fresh ih =>
      intro i member
      obtain ⟨first, second, stated, made⟩ := ih h i member
      exact ⟨first, second, List.mem_cons_of_mem _ stated, made⟩
  | case4 => cases h
  | case5 => cases h
  | case6 declared op first second p rest i made js remaining ih =>
      cases h
      rw [List.forall_mem_cons]
      constructor
      · have made' := made
        simp only [instruction] at made'
        split at made'
        · cases made'
        · cases made'
          exact ⟨first, second, List.mem_cons_self, made⟩
      · intro j member
        obtain ⟨first, second, stated, made⟩ := ih remaining j member
        exact ⟨first, second, List.mem_cons_of_mem _ stated, made⟩

/-- A text that is assembled has been read to its end; its items give the instructions, and all names
in them are known. -/
theorem reading_of_assemble {source : String} {table : VariableTable} {limit : Word}
    {program : Program} (h : Program.assemble source table limit = .ok program) :
    ∃ items is, Reading.ofTokens table none (TokenStream.ofSource source) = { items } ∧
      instructions table (labelsFrom limit 0 items) [] items = .ok is ∧
      (∀ item ∈ items, unknownIn? table (labelsFrom limit 0 items) item = none) ∧
      program = ⟨is.toArray, artifacts ⟨table, limit⟩ (labelsFrom limit 0 items) is.toArray⟩ := by
  rw [Program.assemble, ofTokens_eq_ofReading, ofReading] at h
  simp only at h
  generalize Reading.ofTokens table none (TokenStream.ofSource source) = r at h ⊢
  obtain ⟨items, stop⟩ := r
  split at h
  · cases h
  · rename_i is made
    split at h
    · cases h
    · rename_i complete
      cases h
      obtain ⟨rfl, known⟩ := Option.or_eq_none_iff.mp complete
      exact ⟨items, is, rfl, made, List.findSome?_eq_none_iff.mp known, rfl⟩

/-- Each instruction of an assembled program is made of operands that have been read. -/
theorem written_of_assemble {source : String} {table : VariableTable} {limit : Word}
    {program : Program} (h : Program.assemble source table limit = .ok program) :
    ∀ i ∈ program.instructions, ∃ labels first second,
      (Item.statement i.op first second i.position).Written table ∧
      instruction table labels i.op first second i.position = .ok i := by
  obtain ⟨items, is, read, made, -, rfl⟩ := reading_of_assemble h
  intro i member
  obtain ⟨first, second, stated, made⟩ := mem_instructions made i (List.mem_toArray.mp member)
  have written := written_of_mem_ofTokens table none (TokenStream.ofSource source)
  rw [read] at written
  exact ⟨_, first, second, written _ stated, made⟩

theorem validate_of_instruction {table : VariableTable} {i : Instruction}
    {first second : Option Spelled}
    (made : instruction table labels i.op first second i.position = .ok i) :
    i.op.signature.validate
      (first.map (denoted table labels), second.map (denoted table labels)) = .ok (i.op1, i.op2) := by
  obtain ⟨op, op1, op2, p⟩ := i
  simp only [instruction] at made
  split at made
  · cases made
  · rename_i accepted
    cases made
    exact accepted

/-- An assembled program has only instructions that passed their check. -/
theorem validated_of_assemble {source : String} {table : VariableTable} {limit : Word}
    {program : Program} (h : Program.assemble source table limit = .ok program) :
    ∀ i ∈ program.instructions, i.Validated := by
  intro i member
  obtain ⟨labels, first, second, -, made⟩ := written_of_assemble h i member
  exact ⟨_, validate_of_instruction made⟩

end ReducedX86.Assembly
