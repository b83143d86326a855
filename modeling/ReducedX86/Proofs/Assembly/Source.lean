import ReducedX86.Assembly.Program

/-!
A source text as a list of labels and statements.

Reading stops at the first error of spelling and needs the variables, whose names no label may
have, but neither labels nor addresses. Assembling is the same as reading first and then taking
the items one by one (`assembleFrom_eq_takeReading`).
-/
namespace ReducedX86.Assembly

/-- An operand as it is written: complete in itself, or a name that stands alone. -/
inductive Spelled
  | operand (o : Operand)
  | named (name : String) (position : Position)
  deriving DecidableEq, Repr, Inhabited

inductive Item
  | label (name : String) (position : Position)
  | statement (op : Operator) (first second : Option Spelled) (position : Position)
  deriving DecidableEq, Repr, Inhabited

/-- The items of a text, and the error that ended its reading if one did. -/
structure Reading where
  items : List Item := []
  stop : Option AssemblyError := none
  deriving DecidableEq, Repr, Inhabited

def Reading.cons (i : Item) (r : Reading) : Reading := { r with items := i :: r.items }

/-- Reads one operand of the operator at `p`. -/
def Spelled.read (table : VariableTable) (p : Position) : TokenStream → Parsed Spelled
  | .done => .error (AssemblyErrorKind.operandExpected.at p)
  | .broken e => .error e
  | .token t rest =>
      match t.token with
      | .width _ | .openBracket =>
          match memoryOperand table t rest with
          | .error e => .error e
          | .ok (m, after) => .ok (.operand (.memory m), after)
      | .number value => .ok (.operand (.immediate value 0), rest)
      | .register r => .ok (.operand (.register r), rest)
      | .identifier name => .ok (.named name t.position, rest)
      | _ => .error (AssemblyErrorKind.operandExpected.at p)

/-- Reads the operands of an operator, none for `ret` unless a number follows. -/
def Spelled.readAll (table : VariableTable) (op : Operator) (p : Position) (s : TokenStream) :
    Parsed (Option Spelled × Option Spelled) :=
  if op.signature.operandCount = 0 then .ok ((none, none), s)
  else if op = .control .ret then
    match s with
    | .token ⟨.number value, _⟩ rest => .ok ((some (.operand (.immediate value 0)), none), rest)
    | .broken e => .error e
    | _ => .ok ((none, none), s)
  else
    match Spelled.read table p s with
    | .error e => .error e
    | .ok (first, s') =>
        if op.signature.operandCount = 1 then .ok ((some first, none), s')
        else
          match expect .comma .commaExpected p s' with
          | .error e => .error e
          | .ok s'' =>
              match Spelled.read table p s'' with
              | .error e => .error e
              | .ok (second, after) => .ok ((some first, some second), after)

/-- What an operand is known to be once the labels in `d` are declared. -/
def Spelled.place (setting : Setting) (d : Draft) : Spelled → Reference
  | operand o => .operand o
  | named n p => resolveName setting d n p

def Parsed.map {α β : Type} (f : α → β) : Parsed α → Parsed β
  | .error e => .error e
  | .ok (a, rest) => .ok (f a, rest)

theorem operand_eq_read (setting : Setting) (d : Draft) (p : Position) (s : TokenStream) :
    operand setting d p s = (Spelled.read setting.table p s).map (Spelled.place setting d) := by
  cases s with
  | done | broken e => rfl
  | token t rest =>
      obtain ⟨token, position⟩ := t
      cases token with
      | width w =>
          simp only [operand, Spelled.read]
          cases memoryOperand setting.table ⟨.width w, position⟩ rest <;> rfl
      | openBracket =>
          simp only [operand, Spelled.read]
          cases memoryOperand setting.table ⟨.openBracket, position⟩ rest <;> rfl
      | _ => rfl

theorem operands_eq_readAll (setting : Setting) (d : Draft) (op : Operator) (p : Position)
    (s : TokenStream) :
    operands setting d op p s =
      (Spelled.readAll setting.table op p s).map
        (Prod.map (Option.map (Spelled.place setting d)) (Option.map (Spelled.place setting d))) := by
  unfold operands Spelled.readAll
  simp only [operand_eq_read]
  split
  · rfl
  · split
    · rcases s with _ | e | ⟨⟨token, position⟩, rest⟩
      · rfl
      · rfl
      · cases token <;> rfl
    · cases Spelled.read setting.table p s with
      | error e => rfl
      | ok found =>
          obtain ⟨first, s'⟩ := found
          simp only [Parsed.map]
          split
          · rfl
          · cases expect .comma .commaExpected p s' with
            | error e => rfl
            | ok s'' =>
                simp only
                cases Spelled.read setting.table p s'' <;> rfl

theorem readAll_le {table : VariableTable} {op : Operator} {p : Position} {s after : TokenStream}
    {found : Option Spelled × Option Spelled}
    (h : Spelled.readAll table op p s = .ok (found, after)) : after.length ≤ s.length := by
  have same := operands_eq_readAll ⟨table, 0⟩ {} op p s
  rw [h] at same
  exact operands_le same

/-- The tokens behind the colon that ends the label whose name is at `p`. -/
def Reading.afterColon (p : Position) : TokenStream → Except AssemblyError TokenStream
  | .done => .error (AssemblyErrorKind.colonExpected.at p)
  | .broken e => .error e
  | .token t rest =>
      if t.token = .colon then .ok rest else .error (AssemblyErrorKind.colonExpected.at p)

theorem afterColon_shorter {p : Position} {s after : TokenStream}
    (h : Reading.afterColon p s = .ok after) : after.length < s.length := by
  cases s with
  | done | broken e => cases h
  | token t rest =>
      rw [Reading.afterColon] at h
      split at h
      · cases h
        exact Nat.lt_succ_self _
      · cases h

/-- Reads the remaining tokens; `rep` is the position of a repeat mark that still waits for its
instruction. -/
def Reading.ofTokens (table : VariableTable) (rep : Option Position) : TokenStream → Reading
  | .done => { stop := rep.map AssemblyErrorKind.operatorExpectedAfterRep.at }
  | .broken e => { stop := some e }
  | .token t rest =>
      match t.token with
      | .identifier name =>
          if rep.isSome then
            { stop := some (AssemblyErrorKind.operatorExpectedAfterRep.at t.position) }
          else if table.contains name then
            { stop := some (AssemblyErrorKind.labelOrOperatorExpected.at t.position) }
          else
            match _h : Reading.afterColon t.position rest with
            | .error e => { stop := some e }
            | .ok after => (Reading.ofTokens table rep after).cons (.label name t.position)
      | .operator op =>
          if op.signature.repeats && rep.isSome then
            { stop := some (AssemblyErrorKind.operatorExpectedAfterRep.at t.position) }
          else if !op.signature.repeats && rep.isSome && !op.signature.repeatable then
            { stop := some (AssemblyErrorKind.operatorNotRepeatable.at t.position) }
          else
            match _h : Spelled.readAll table op t.position rest with
            | .error e => { stop := some e }
            | .ok ((first, second), after) =>
                (Reading.ofTokens table (if op.signature.repeats then some t.position else none)
                  after).cons (.statement op first second t.position)
      | _ =>
          { stop := some ((if rep.isSome then AssemblyErrorKind.operatorExpectedAfterRep
              else AssemblyErrorKind.labelOrOperatorExpected).at t.position) }
termination_by s => s.length
decreasing_by
  · have := afterColon_shorter _h
    simp only [TokenStream.length]
    omega
  · have := readAll_le _h
    simp only [TokenStream.length]
    omega

/-- Declares a label, or checks and emits an instruction. -/
def Draft.take (setting : Setting) (d : Draft) : Item → Except AssemblyError Draft
  | .label name p => d.declare setting.limit name p
  | .statement op first second p =>
      d.emit op (first.map (·.place setting d)) (second.map (·.place setting d)) p

def Draft.takeAll (setting : Setting) (d : Draft) : List Item → Except AssemblyError Draft
  | [] => .ok d
  | i :: rest =>
      match d.take setting i with
      | .error e => .error e
      | .ok d' => d'.takeAll setting rest

/-- Takes all items; then the error that stopped the reading counts. -/
def Draft.takeReading (setting : Setting) (d : Draft) (r : Reading) : Except AssemblyError Draft :=
  match d.takeAll setting r.items with
  | .error e => .error e
  | .ok d' =>
      match r.stop with
      | some e => .error e
      | none => .ok d'

@[simp] theorem takeReading_stop (setting : Setting) (d : Draft) (e : AssemblyError) :
    d.takeReading setting { stop := some e } = .error e := rfl

theorem takeReading_cons (setting : Setting) (d : Draft) (i : Item) (r : Reading) :
    d.takeReading setting (r.cons i) =
      match d.take setting i with
      | .error e => .error e
      | .ok d' => d'.takeReading setting r := by
  simp only [Draft.takeReading, Reading.cons, Draft.takeAll]
  cases d.take setting i <;> rfl

theorem statement_eq_readAll (setting : Setting) (d : Draft) (op : Operator) (p : Position)
    (s : TokenStream) :
    statement setting d op p s =
      match Spelled.readAll setting.table op p s with
      | .error e => .error e
      | .ok ((first, second), after) =>
          match d.take setting (.statement op first second p) with
          | .error e => .error e
          | .ok d' => .ok (d', after) := by
  unfold statement
  rw [operands_eq_readAll]
  cases Spelled.readAll setting.table op p s <;> rfl

/-- A name that no variable has declares a label, if a colon follows. -/
theorem assembleFrom_label {setting : Setting} {d : Draft} {rep : Option Position} {t : Lexeme}
    {rest : TokenStream} {name : String} (token : t.token = .identifier name)
    (free : ¬ rep.isSome = true) (fresh : ¬ setting.table.contains name = true) :
    assembleFrom setting d rep (.token t rest) =
      match Reading.afterColon t.position rest with
      | .error e => .error e
      | .ok after =>
          match d.declare setting.limit name t.position with
          | .error e => .error e
          | .ok d' => assembleFrom setting d' rep after := by
  rw [assembleFrom]
  simp only [token, if_neg free, if_neg fresh]
  rcases rest with _ | e | ⟨⟨next, position⟩, after⟩
  · rfl
  · rfl
  · cases next <;> rfl

/-- An operator whose place is right takes its statement from the tokens. -/
theorem assembleFrom_operator {setting : Setting} {d : Draft} {rep : Option Position} {t : Lexeme}
    {rest : TokenStream} {op : Operator} (token : t.token = .operator op)
    (once : ¬ (op.signature.repeats && rep.isSome) = true)
    (allowed : ¬ (!op.signature.repeats && rep.isSome && !op.signature.repeatable) = true) :
    assembleFrom setting d rep (.token t rest) =
      match statement setting d op t.position rest with
      | .error e => .error e
      | .ok (d', after) =>
          assembleFrom setting d' (if op.signature.repeats then some t.position else none)
            after := by
  rw [assembleFrom]
  simp only [token, if_neg once, if_neg allowed]
  split <;> rename_i h <;> rw [h]

/-- One pass over the tokens is a reading, and then its items one by one. -/
theorem assembleFrom_eq_takeReading (setting : Setting) (d : Draft) (rep : Option Position)
    (s : TokenStream) :
    assembleFrom setting d rep s =
      d.takeReading setting (Reading.ofTokens setting.table rep s) := by
  obtain ⟨table, limit⟩ := setting
  simp only
  fun_induction Reading.ofTokens table rep s generalizing d with
  | case1 rep => cases rep <;> rw [assembleFrom] <;> rfl
  | case2 rep e => rw [assembleFrom]; rfl
  | case3 rep t rest name token pending => simp [assembleFrom, token, pending]
  | case4 rep t rest name token free declared => simp [assembleFrom, token, free, declared]
  | case5 rep t rest name token free fresh e unended =>
      rw [assembleFrom_label token free fresh, unended, takeReading_stop]
  | case6 rep t rest name token free fresh after ended ih =>
      rw [assembleFrom_label token free fresh, ended, takeReading_cons]
      simp only [Draft.take]
      cases d.declare limit name t.position with
      | error e => rfl
      | ok d' => exact ih d'
  | case7 rep t rest op token again => simp [assembleFrom, token, again]
  | case8 rep t rest op token once refused => simp [assembleFrom, token, once, refused]
  | case9 rep t rest op token once allowed e unread =>
      rw [assembleFrom_operator token once allowed, statement_eq_readAll, unread, takeReading_stop]
  | case10 rep t rest op token once allowed first second after found ih =>
      rw [assembleFrom_operator token once allowed, statement_eq_readAll, found, takeReading_cons]
      simp only
      cases d.take ⟨table, limit⟩ (.statement op first second t.position) with
      | error e => rfl
      | ok d' => exact ih d'
  | case11 rep t rest notName notOperator =>
      rw [assembleFrom, takeReading_stop]
      cases token : t.token with
      | identifier name => exact absurd token (notName name)
      | operator op => exact absurd token (notOperator op)
      | _ => rfl

/-- A repeat mark stands for itself, without operands. -/
def Item.Plain : Item → Prop
  | .label _ _ => True
  | .statement op first second _ => op.signature.repeats → first = none ∧ second = none

theorem eq_rep_of_repeats {op : Operator} (mark : op.signature.repeats) : op = .rep := by
  have all : ∀ op ∈ Operator.all, op.signature.repeats → op = .rep := by decide +kernel
  exact all op (Operator.mem_all op) mark

theorem readAll_none {table : VariableTable} {op : Operator} {p : Position} {s after : TokenStream}
    {found : Option Spelled × Option Spelled} (h : Spelled.readAll table op p s = .ok (found, after))
    (mark : op.signature.repeats) : found = (none, none) := by
  rw [eq_rep_of_repeats mark] at h
  cases h
  rfl

/-- The operands of a statement have been read somewhere in a text. -/
def Item.Written (table : VariableTable) : Item → Prop
  | .label _ _ => True
  | .statement op first second p =>
      ∃ s after, Spelled.readAll table op p s = .ok ((first, second), after)

theorem written_of_mem_ofTokens (table : VariableTable) (rep : Option Position) (s : TokenStream) :
    ∀ i ∈ (Reading.ofTokens table rep s).items, i.Written table := by
  fun_induction Reading.ofTokens table rep s with
  | case6 rep t rest name token free fresh after ended ih =>
      simpa [Reading.cons, Item.Written] using ih
  | case10 rep t rest op token once allowed first second after found ih =>
      simp only [Reading.cons, List.forall_mem_cons]
      exact ⟨⟨_, _, found⟩, ih⟩
  | _ => simp

theorem plain_of_mem_ofTokens (table : VariableTable) (rep : Option Position) (s : TokenStream) :
    ∀ i ∈ (Reading.ofTokens table rep s).items, i.Plain := by
  intro i member
  have written := written_of_mem_ofTokens table rep s i member
  cases i with
  | label => trivial
  | statement op first second p =>
      intro mark
      obtain ⟨s, after, found⟩ := written
      have none_found := readAll_none found mark
      exact ⟨congrArg Prod.fst none_found, congrArg Prod.snd none_found⟩

end ReducedX86.Assembly
