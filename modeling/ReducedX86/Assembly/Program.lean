import ReducedX86.Assembly.Address
import ReducedX86.Entries

/-!
The assembler.

Statements are read, checked and emitted one after the other. The instruction number `i` lives at
`limit + 4 * i`, and a label names the instruction that is emitted next. A label that is used
before it is declared leaves a note, and the notes are worked off when the whole text has been
read; so an unknown label is reported only if nothing else is wrong.
-/
namespace ReducedX86

/-- What a program knows about its source besides the instructions. -/
structure Artifacts where
  /-- labels as written, in the order of declaration -/
  labels : List (String × Word) := []
  addressToLabel : List (Word × String) := []
  /-- lines, counted from zero, with the address of their first instruction -/
  lineToAddress : List (Nat × Word) := []
  addressToLine : List (Word × Nat) := []
  /-- the variables in the order of their addresses -/
  layout : List Variable := []
  deriving DecidableEq, Repr, Inhabited

structure Program where
  instructions : Array Instruction := #[]
  artifacts : Artifacts := {}
  deriving DecidableEq, Repr, Inhabited

namespace Assembly

/-- The address of instruction number `i` above a memory limit. -/
def instructionAddress (limit : Word) (i : Nat) : Word := limit + UInt32.ofNat (4 * i)

/-- A use of a label that was not yet declared. -/
structure ForwardUse where
  name : String
  position : Position
  instruction : Nat
  second : Bool
  deriving DecidableEq, Repr, Inhabited

/-- What has been assembled so far. -/
structure Draft where
  /-- declared labels by key -/
  known : List (String × Word) := []
  /-- declared labels as written -/
  labels : List (String × Word) := []
  uses : List ForwardUse := []
  instructions : Array Instruction := #[]
  deriving DecidableEq, Repr, Inhabited

/-- What a source is assembled against: allocated variables and the end of data memory. -/
structure Setting where
  table : VariableTable
  limit : Word
  deriving DecidableEq, Repr, Inhabited

/-- An operand as read: final, or a label that is still to come. -/
inductive Reference
  | operand (o : Operand)
  | forward (name : String) (position : Position)
  deriving DecidableEq, Repr, Inhabited

namespace Reference

/-- The operand as far as it is known; it has its final kind and width. -/
def provisional : Reference → Operand
  | operand o => o
  | forward _ _ => .label 0

/-- The note that a reference leaves for the instruction it belongs to. -/
def use? (instruction : Nat) (second : Bool) : Reference → Option ForwardUse
  | operand _ => none
  | forward name position => some ⟨name, position, instruction, second⟩

end Reference

def Draft.nextAddress (d : Draft) (limit : Word) : Word :=
  instructionAddress limit d.instructions.size

def Draft.declare (d : Draft) (limit : Word) (name : String) (p : Position) :
    Except AssemblyError Draft :=
  let k := VariableTable.key name
  if (d.known.lookup k).isSome then .error ((AssemblyErrorKind.duplicateLabel name).at p)
  else
    let address := d.nextAddress limit
    .ok { d with known := (k, address) :: d.known, labels := d.labels ++ [(name, address)] }

/-- What a name stands for as an operand. -/
def resolveName (setting : Setting) (d : Draft) (name : String) (p : Position) : Reference :=
  match setting.table.find? name with
  | some v => .operand v.operand
  | none =>
      match d.known.lookup (VariableTable.key name) with
      | some address => .operand (.label address)
      | none => .forward name p

def operand (setting : Setting) (d : Draft) (p : Position) : TokenStream → Parsed Reference
  | .done => .error (AssemblyErrorKind.operandExpected.at p)
  | .broken e => .error e
  | .token t rest =>
      match t.token with
      | .width _ | .openBracket =>
          match memoryOperand setting.table t rest with
          | .error e => .error e
          | .ok (m, after) => .ok (.operand (.memory m), after)
      | .number value => .ok (.operand (.immediate value 0), rest)
      | .register r => .ok (.operand (.register r), rest)
      | .identifier name => .ok (resolveName setting d name t.position, rest)
      | _ => .error (AssemblyErrorKind.operandExpected.at p)

/-- The operands of an operator: as many as its signature says, but `ret` takes a number only if
one follows. -/
def operands (setting : Setting) (d : Draft) (op : Operator) (p : Position) (s : TokenStream) :
    Parsed (Option Reference × Option Reference) :=
  if op.signature.operandCount = 0 then .ok ((none, none), s)
  else if op = .control .ret then
    match s with
    | .token ⟨.number value, _⟩ rest => .ok ((some (.operand (.immediate value 0)), none), rest)
    | .broken e => .error e
    | _ => .ok ((none, none), s)
  else
    match operand setting d p s with
    | .error e => .error e
    | .ok (first, s') =>
        if op.signature.operandCount = 1 then .ok ((some first, none), s')
        else
          match expect .comma .commaExpected p s' with
          | .error e => .error e
          | .ok s'' =>
              match operand setting d p s'' with
              | .error e => .error e
              | .ok (second, after) => .ok ((some first, some second), after)

def Draft.emit (d : Draft) (op : Operator) (first second : Option Reference) (p : Position) :
    Except AssemblyError Draft :=
  let given := (first.map Reference.provisional, second.map Reference.provisional)
  let checked := if op.signature.repeats then .ok given else op.signature.validate given
  match checked with
  | .error e => .error ((AssemblyErrorKind.validation e).at p)
  | .ok (op1, op2) =>
      let i := d.instructions.size
      let notes := (first.bind (·.use? i false)).toList ++ (second.bind (·.use? i true)).toList
      .ok { d with
        uses := d.uses ++ notes
        instructions := d.instructions.push ⟨op, op1, op2, p⟩ }

def statement (setting : Setting) (d : Draft) (op : Operator) (p : Position) (s : TokenStream) :
    Parsed Draft :=
  match operands setting d op p s with
  | .error e => .error e
  | .ok ((first, second), after) =>
      match d.emit op first second p with
      | .error e => .error e
      | .ok d' => .ok (d', after)

theorem operand_shorter {setting : Setting} {d : Draft} {p : Position} {s after : TokenStream}
    {r : Reference} (h : operand setting d p s = .ok (r, after)) : after.length < s.length := by
  unfold operand at h
  split at h
  · cases h
  · cases h
  · rw [TokenStream.length]
    split at h
    all_goals first
      | (cases h; done)
      | (cases h; omega)
      | (split at h
         · cases h
         · rename_i hm
           have := memoryOperand_shorter hm
           cases h
           omega)

theorem operands_le {setting : Setting} {d : Draft} {op : Operator} {p : Position}
    {s after : TokenStream} {r : Option Reference × Option Reference}
    (h : operands setting d op p s = .ok (r, after)) : after.length ≤ s.length := by
  unfold operands at h
  split at h
  · cases h; exact Nat.le_refl _
  · split at h
    · split at h
      · cases h; simp only [TokenStream.length]; omega
      · cases h
      · cases h; exact Nat.le_refl _
    · split at h
      · cases h
      · rename_i h₁
        have := operand_shorter h₁
        split at h
        · cases h; omega
        · split at h
          · cases h
          · rename_i h₂
            have := expect_shorter h₂
            split at h
            · cases h
            · rename_i h₃
              have := operand_shorter h₃
              cases h
              omega

theorem statement_le {setting : Setting} {d d' : Draft} {op : Operator} {p : Position}
    {s after : TokenStream} (h : statement setting d op p s = .ok (d', after)) :
    after.length ≤ s.length := by
  unfold statement at h
  split at h
  · cases h
  · rename_i ho
    split at h
    · cases h
    · cases h; exact operands_le ho

/-- Assembles the remaining tokens; `rep` is the position of a repeat mark that still waits for
its instruction. -/
def assembleFrom (setting : Setting) (d : Draft) (rep : Option Position) :
    TokenStream → Except AssemblyError Draft
  | .done =>
      match rep with
      | some p => .error (AssemblyErrorKind.operatorExpectedAfterRep.at p)
      | none => .ok d
  | .broken e => .error e
  | .token t rest =>
      match t.token with
      | .identifier name =>
          if rep.isSome then .error (AssemblyErrorKind.operatorExpectedAfterRep.at t.position)
          else if setting.table.contains name then
            .error (AssemblyErrorKind.labelOrOperatorExpected.at t.position)
          else
            match rest with
            | .token ⟨.colon, _⟩ rest' =>
                match d.declare setting.limit name t.position with
                | .error e => .error e
                | .ok d' => assembleFrom setting d' rep rest'
            | .broken e => .error e
            | _ => .error (AssemblyErrorKind.colonExpected.at t.position)
      | .operator op =>
          if op.signature.repeats && rep.isSome then
            .error (AssemblyErrorKind.operatorExpectedAfterRep.at t.position)
          else if !op.signature.repeats && rep.isSome && !op.signature.repeatable then
            .error (AssemblyErrorKind.operatorNotRepeatable.at t.position)
          else
            match _h : statement setting d op t.position rest with
            | .error e => .error e
            | .ok (d', after) =>
                assembleFrom setting d' (if op.signature.repeats then some t.position else none)
                  after
      | _ =>
          .error ((if rep.isSome then AssemblyErrorKind.operatorExpectedAfterRep
            else AssemblyErrorKind.labelOrOperatorExpected).at t.position)
termination_by s => s.length
decreasing_by
  · simp only [TokenStream.length]; omega
  · have := statement_le _h
    simp only [TokenStream.length]
    omega

/-- Puts the address of a label into the instruction that used it. -/
def ForwardUse.patch (use : ForwardUse) (address : Word) (i : Instruction) : Instruction :=
  if use.second then { i with op2 := some (.label address) }
  else { i with op1 := some (.label address) }

/-- Works off the forward uses in the order in which they were written. -/
def resolve (known : List (String × Word)) :
    List ForwardUse → Array Instruction → Except AssemblyError (Array Instruction)
  | [], instructions => .ok instructions
  | use :: rest, instructions =>
      match known.lookup (VariableTable.key use.name) with
      | none => .error ((AssemblyErrorKind.unknownLabel use.name).at use.position)
      | some address =>
          resolve known rest (instructions.modify use.instruction (use.patch address))

def located (limit : Word) (instructions : Array Instruction) : List (Word × Instruction) :=
  instructions.toList.zipIdx.map fun (i, n) => (instructionAddress limit n, i)

def artifacts (setting : Setting) (labels : List (String × Word))
    (instructions : Array Instruction) : Artifacts :=
  let placed := located setting.limit instructions
  { labels
    addressToLabel := labels.foldl (fun m (name, address) => Entries.put m address name) []
    lineToAddress :=
      placed.foldl (fun m (address, i) => Entries.putNew m i.position.line address) []
    addressToLine := placed.foldl (fun m (address, i) => Entries.put m address i.position.line) []
    layout := setting.table.entries.mergeSort fun a b => a.address ≤ b.address }

def ofTokens (setting : Setting) (tokens : TokenStream) : Except AssemblyError Program :=
  match assembleFrom setting {} none tokens with
  | .error e => .error e
  | .ok d =>
      match resolve d.known d.uses d.instructions with
      | .error e => .error e
      | .ok instructions => .ok ⟨instructions, artifacts setting d.labels instructions⟩

end Assembly

namespace Program

def assemble (source : String) (table : VariableTable) (limit : Word) :
    Except AssemblyError Program :=
  Assembly.ofTokens ⟨table, limit⟩ (TokenStream.ofSource source)

/-- Allocates the variables in a memory and assembles a source text against them. The allocated
table is returned also when the text is refused. -/
def assembleIn (source : String) (table : VariableTable) (memorySize : Nat) :
    Except AssemblyError Program × VariableTable :=
  match table.allocate memorySize with
  | .error total => (.error ⟨.notEnoughSpace total, none⟩, table)
  | .ok allocated =>
      (assemble source allocated (UInt32.ofNat (Memory.base + memorySize)), allocated)

end Program

end ReducedX86
