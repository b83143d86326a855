import ReducedX86.Proofs.Assembly.Accounting
import ReducedX86.Proofs.Assembly.Addressing
import ReducedX86.Proofs.Assembly.WellFormed

/-!
What a program tells about its source.

The tokens of a text say which instructions and labels there are: every operator makes an
instruction, and every name with a colon behind it is a label. The artifacts of an assembled program
agree with its tokens, over lines of several statements, marks and labels that share an address.
-/
namespace ReducedX86

open Assembly

/-! Operators and labels among tokens -/

namespace Lexeme

def operator? (t : Lexeme) : Option (Operator × Position) :=
  match t.token with
  | .operator op => some (op, t.position)
  | _ => none

def operators (tokens : List Lexeme) : List (Operator × Position) := tokens.filterMap operator?

/-- The names that a colon follows, each with `n` and the number of operators before it. -/
def declarations (n : Nat) : List Lexeme → List (String × Nat)
  | ⟨.identifier name, _⟩ :: ⟨.colon, _⟩ :: rest => (name, n) :: declarations n rest
  | ⟨.operator _, _⟩ :: rest => declarations (n + 1) rest
  | _ :: rest => declarations n rest
  | [] => []

@[simp] theorem operators_nil : operators [] = [] := rfl

@[simp] theorem operators_cons (t : Lexeme) (rest : List Lexeme) :
    operators (t :: rest) = t.operator?.toList ++ operators rest := by
  cases found : t.operator? <;> simp [operators, found]

@[simp] theorem operators_append (xs ys : List Lexeme) :
    operators (xs ++ ys) = operators xs ++ operators ys := List.filterMap_append

theorem length_operators_operator (op : Operator) (p : Position) (rest : List Lexeme) :
    (operators (⟨.operator op, p⟩ :: rest)).length = (operators rest).length + 1 := rfl

/-- A name before a colon is declared with the number of operators before it. -/
theorem mem_declarations_iff {tokens : List Lexeme} {name : String} {n k : Nat} :
    (name, k) ∈ declarations n tokens ↔ ∃ before p q after,
      tokens = before ++ ⟨.identifier name, p⟩ :: ⟨.colon, q⟩ :: after ∧
        k = n + (operators before).length := by
  fun_induction declarations n tokens with
  | case1 n name' p q rest ih =>
      rw [List.mem_cons, ih, Prod.mk.injEq]
      constructor
      · rintro (⟨rfl, rfl⟩ | ⟨before, p', q', after, rfl, rfl⟩)
        · exact ⟨[], p, q, rest, rfl, rfl⟩
        · exact ⟨⟨.identifier name', p⟩ :: ⟨.colon, q⟩ :: before, p', q', after, rfl, rfl⟩
      · rintro ⟨_ | ⟨t, _ | ⟨u, before⟩⟩, p', q', after, split, rfl⟩
        · cases split
          exact .inl ⟨rfl, rfl⟩
        · cases split
        · cases split
          exact .inr ⟨before, p', q', after, rfl, rfl⟩
  | case2 n op p rest ih =>
      rw [ih]
      constructor
      · rintro ⟨before, p', q', after, rfl, rfl⟩
        refine ⟨⟨.operator op, p⟩ :: before, p', q', after, rfl, ?_⟩
        rw [length_operators_operator, Nat.add_assoc, Nat.add_comm 1]
      · rintro ⟨_ | ⟨t, before⟩, p', q', after, split, rfl⟩
        · cases split
        · cases split
          refine ⟨before, p', q', after, rfl, ?_⟩
          rw [length_operators_operator, Nat.add_assoc, Nat.add_comm 1]
  | case3 n t rest noLabel noOperator ih =>
      have none_here : t.operator? = none := by
        obtain ⟨token, p⟩ := t
        cases token with
        | operator op => exact absurd rfl (noOperator op p)
        | _ => rfl
      rw [ih]
      constructor
      · rintro ⟨before, p', q', after, rfl, rfl⟩
        exact ⟨t :: before, p', q', after, rfl, by simp [none_here]⟩
      · rintro ⟨_ | ⟨t, before⟩, p', q', after, split, rfl⟩
        · cases split
          exact absurd rfl (noLabel name p' q' after rfl)
        · cases split
          exact ⟨before, p', q', after, rfl, by simp [none_here]⟩
  | case4 => simp

end Lexeme

/-- The token can stand among the operands of a statement. -/
def Token.Inner : Token → Prop
  | .operator _ | .colon => False
  | _ => True

namespace TokenStream

/-- Some tokens of operands stand in front of what is left. -/
def Passes (s after : TokenStream) : Prop :=
  ∃ tokens, s.Begins tokens after ∧ ∀ t ∈ tokens, t.Inner

theorem Passes.refl (s : TokenStream) : s.Passes s := ⟨[], .nil, by simp⟩

theorem Passes.token {t : Lexeme} (inner : t.token.Inner) (rest : TokenStream) :
    (token t rest).Passes rest := ⟨[t.token], .cons rfl .nil, by simpa using inner⟩

theorem Passes.trans {s middle after : TokenStream} (first : s.Passes middle)
    (second : middle.Passes after) : s.Passes after := by
  obtain ⟨xs, begins, inner⟩ := first
  obtain ⟨ys, begins', inner'⟩ := second
  refine ⟨xs ++ ys, begins_append_iff.mpr ⟨middle, begins, begins'⟩, ?_⟩
  rw [List.forall_mem_append]
  exact ⟨inner, inner'⟩

theorem Begins.exists_ofList {s after : TokenStream} {front : List Token} {tokens : List Lexeme}
    (begins : s.Begins front after) (rest : after = ofList tokens) :
    ∃ lexemes, lexemes.map Lexeme.token = front ∧ s = ofList (lexemes ++ tokens) := by
  induction begins with
  | nil => exact ⟨[], rfl, rest⟩
  | @cons t _ _ _ _ same follows ih =>
      obtain ⟨lexemes, spelled, rfl⟩ := ih rest
      exact ⟨t :: lexemes, by rw [List.map_cons, same, spelled], rfl⟩

end TokenStream

namespace Assembly

open TokenStream

section Reading

variable {table : VariableTable} {s after : TokenStream}

theorem inner_of_mem_product {p : Product} : ∀ t ∈ p.tokens, t.Inner := by
  have single (f : Factor) : f.token.Inner := by cases f <;> trivial
  induction p with
  | single f => simpa [Product.tokens] using single f
  | times f p ih =>
      simp only [Product.tokens, List.forall_mem_cons]
      exact ⟨single f, trivial, ih⟩

theorem inner_of_mem_expression {e : Expression} : ∀ t ∈ e.tokens, t.Inner := by
  induction e with
  | single p => exact inner_of_mem_product
  | plus p e ih =>
      simp only [Expression.tokens, List.forall_mem_append, List.forall_mem_cons]
      exact ⟨inner_of_mem_product, trivial, ih⟩

theorem passes_of_expect {token : Token} {kind : AssemblyErrorKind} {p : Position}
    (inner : token.Inner) (read : expect token kind p s = .ok after) : s.Passes after := by
  rcases s with _ | e | ⟨t, rest⟩
  · cases read
  · cases read
  · rw [expect] at read
    split at read
    · rename_i same
      cases read
      exact .token (same ▸ inner) _
    · cases read

theorem passes_of_sizeMark {first : Lexeme} {size : Nat}
    (read : sizeMark first s = .ok (size, after)) : s.Passes after := by
  unfold sizeMark at read
  split at read
  · split at read
    · cases read
    · rename_i ptr
      split at read
      · cases read
      · rename_i bracket
        cases read
        exact (passes_of_expect (by trivial) ptr).trans (passes_of_expect (by trivial) bracket)
  · cases read
    exact .refl _

theorem passes_of_memoryOperand {first : Lexeme} {m : MemoryOperand}
    (read : memoryOperand table first s = .ok (m, after)) : s.Passes after := by
  unfold memoryOperand at read
  split at read
  · cases read
  · rename_i marked
    split at read
    · cases read
    · rename_i summed
      split at read
      · cases read
      · cases read
        obtain ⟨e, spelled⟩ := spelled_of_sum summed
        refine (passes_of_sizeMark marked).trans ⟨_, spelled, ?_⟩
        rw [List.forall_mem_append, List.forall_mem_singleton]
        exact ⟨inner_of_mem_expression, trivial⟩

theorem passes_of_read {p : Position} {x : Spelled}
    (read : Spelled.read table p s = .ok (x, after)) : s.Passes after := by
  rcases s with _ | e | ⟨⟨token, q⟩, rest⟩
  · cases read
  · cases read
  · simp only [Spelled.read] at read
    split at read
    case h_1 | h_2 =>
      split at read
      · cases read
      · rename_i found
        cases read
        exact (Passes.token (by trivial) rest).trans (passes_of_memoryOperand found)
    case h_6 => cases read
    all_goals
      cases read
      exact .token (by trivial) _

theorem passes_of_readAll {op : Operator} {p : Position} {found : Option Spelled × Option Spelled}
    (read : Spelled.readAll table op p s = .ok (found, after)) : s.Passes after := by
  unfold Spelled.readAll at read
  split at read
  · cases read
    exact .refl _
  · split at read
    · split at read <;> cases read
      · exact .token (by trivial) _
      · exact .refl _
    · split at read
      · cases read
      · rename_i first
        split at read
        · cases read
          exact passes_of_read first
        · split at read
          · cases read
          · rename_i comma
            split at read
            · cases read
            · rename_i second
              cases read
              exact (passes_of_read first).trans
                ((passes_of_expect (by trivial) comma).trans (passes_of_read second))

/-- The tokens are those of the items: names with their colons, and operators with the tokens of
their operands. -/
inductive Spells : List Lexeme → List Item → Prop
  | nil : Spells [] []
  | label {name : String} {p q : Position} {tokens : List Lexeme} {items : List Item}
      (rest : Spells tokens items) :
      Spells (⟨.identifier name, p⟩ :: ⟨.colon, q⟩ :: tokens) (.label name p :: items)
  | statement {op : Operator} {first second : Option Spelled} {p : Position}
      {operands tokens : List Lexeme} {items : List Item}
      (inner : ∀ t ∈ operands, t.token.Inner) (rest : Spells tokens items) :
      Spells (⟨.operator op, p⟩ :: (operands ++ tokens)) (.statement op first second p :: items)

/-- A text that is read to its end has no tokens but those of its items. -/
theorem spells_of_ofTokens (table : VariableTable) (rep : Option Position) (s : TokenStream)
    (complete : (Reading.ofTokens table rep s).stop = none) :
    ∃ tokens, s = .ofList tokens ∧ Spells tokens (Reading.ofTokens table rep s).items := by
  fun_induction Reading.ofTokens table rep s with
  | case1 rep => exact ⟨[], rfl, .nil⟩
  | case6 rep t rest name token free fresh after ended ih =>
      obtain ⟨tokens, rfl, spells⟩ := ih complete
      obtain ⟨_, p⟩ := t
      obtain rfl : _ = Token.identifier name := token
      rcases rest with _ | e | ⟨⟨token, q⟩, rest⟩
      · cases ended
      · cases ended
      · rw [Reading.afterColon] at ended
        split at ended
        · rename_i colon
          cases ended
          obtain rfl : token = .colon := colon
          exact ⟨_, rfl, .label spells⟩
        · cases ended
  | case10 rep t rest op token once allowed first second after found ih =>
      obtain ⟨tokens, rest', spells⟩ := ih complete
      obtain ⟨front, begins, inner⟩ := passes_of_readAll found
      obtain ⟨operands, rfl, rfl⟩ := begins.exists_ofList rest'
      obtain ⟨_, p⟩ := t
      obtain rfl : _ = Token.operator op := token
      exact ⟨_, rfl, .statement (by simpa using inner) spells⟩
  | case2 | case3 | case4 | case5 | case7 | case8 | case9 | case11 => cases complete

end Reading

section Items

variable {tokens : List Lexeme} {items : List Item}

theorem operator?_eq_none_of_inner {t : Lexeme} (inner : t.token.Inner) : t.operator? = none := by
  obtain ⟨token, p⟩ := t
  cases token with
  | operator op => exact inner.elim
  | _ => rfl

def Item.operator? : Item → Option (Operator × Position)
  | .label _ _ => none
  | .statement op _ _ p => some (op, p)

theorem Spells.operators_eq (spells : Spells tokens items) :
    Lexeme.operators tokens = items.filterMap Item.operator? := by
  induction spells with
  | nil => rfl
  | label rest ih => exact ih
  | @statement op _ _ p operands _ _ inner rest ih =>
      have free : Lexeme.operators operands = [] :=
        List.filterMap_eq_nil_iff.mpr fun t member => operator?_eq_none_of_inner (inner t member)
      rw [Lexeme.operators_cons, Lexeme.operators_append, free]
      exact congrArg ((op, p) :: ·) ih

/-- What is spelled does not start with a colon. -/
theorem Spells.head?_ne_colon (spells : Spells tokens items) :
    tokens.head?.map Lexeme.token ≠ some .colon := by
  cases spells <;> simp

theorem declarations_inner {t : Lexeme} (inner : t.token.Inner)
    (starts : tokens.head?.map Lexeme.token ≠ some .colon) (n : Nat) :
    Lexeme.declarations n (t :: tokens) = Lexeme.declarations n tokens := by
  rw [Lexeme.declarations]
  · rintro name p q rest rfl rfl
    exact starts rfl
  · rintro op p rfl
    exact inner.elim

/-- Names among operands declare nothing, even the last of them, as no colon comes after it. -/
theorem declarations_operands {operands : List Lexeme} (inner : ∀ t ∈ operands, t.token.Inner)
    (starts : tokens.head?.map Lexeme.token ≠ some .colon) (n : Nat) :
    (operands ++ tokens).head?.map Lexeme.token ≠ some .colon ∧
      Lexeme.declarations n (operands ++ tokens) = Lexeme.declarations n tokens := by
  induction operands with
  | nil => exact ⟨starts, rfl⟩
  | cons t operands ih =>
      rw [List.forall_mem_cons] at inner
      obtain ⟨starts', skipped⟩ := ih inner.2
      refine ⟨?_, (declarations_inner inner.1 starts' n).trans skipped⟩
      intro colon
      have inner := inner.1
      rw [Option.some.inj colon] at inner
      exact inner

/-- The labels that are read are the names before colons. -/
theorem Spells.labelsFrom_eq (spells : Spells tokens items) (limit : Word) (n : Nat) :
    TwoPass.labelsFrom limit n items =
      (Lexeme.declarations n tokens).map (Prod.map id (instructionAddress limit)) := by
  induction spells generalizing n with
  | nil => rfl
  | label rest ih => exact congrArg (_ :: ·) (ih n)
  | statement inner rest ih =>
      have skipped := (declarations_operands inner rest.head?_ne_colon (n + 1)).2
      rw [Lexeme.declarations, skipped]
      exact ih (n + 1)

variable {table : VariableTable} {labels : List (String × Word)} {declared : List String}
  {is : List Instruction}

/-- Each statement makes one instruction, with the operator and at its place. -/
theorem operators_of_instructions
    (made : TwoPass.instructions table labels declared items = .ok is) :
    is.map (fun i => (i.op, i.position)) = items.filterMap Item.operator? := by
  fun_induction TwoPass.instructions table labels declared items generalizing is with
  | case1 => cases made; rfl
  | case3 declared name p rest fresh ih => exact ih made
  | case6 declared op first second p rest i this js remaining ih =>
      cases made
      obtain ⟨rfl, rfl⟩ := origin_of_instruction this
      exact congrArg (_ :: ·) (ih remaining)
  | case2 | case4 | case5 => cases made

/-- No two labels of a program have the same name, whatever the case of its letters. -/
theorem nodup_of_instructions (made : TwoPass.instructions table labels declared items = .ok is)
    (distinct : declared.Nodup) (limit : Word) (n : Nat) :
    (declared ++ (TwoPass.labelsFrom limit n items).map (VariableTable.key ·.1)).Nodup := by
  fun_induction TwoPass.instructions table labels declared items generalizing is n with
  | case1 => simpa [TwoPass.labelsFrom] using distinct
  | case3 declared name p rest fresh ih =>
      rw [TwoPass.labelsFrom, List.map_cons, List.perm_middle.nodup_iff]
      exact ih made (List.nodup_cons.mpr ⟨fresh, distinct⟩) n
  | case6 declared op first second p rest i this js remaining ih =>
      exact ih remaining distinct (n + 1)
  | case2 | case4 | case5 => cases made

end Items

end Assembly

namespace Program

variable {source : String} {table : VariableTable} {limit : Word} {program : Program}

/-- The address of the instruction of each operator, and the line that the operator is on. -/
def places (limit : Word) (operators : List (Operator × Position)) : List (Word × Nat) :=
  operators.mapIdx fun n o => (instructionAddress limit n, o.2.line)

/-- The artifacts of a program agree with its instructions and with the tokens of its source.
Addresses count modulo `2 ^ 32`, so instructions of a program that is too large can share one. -/
structure Documents (limit : Word) (tokens : List Lexeme) (program : Program) : Prop where
  instructions :
    program.instructions.toList.map (fun i => (i.op, i.position)) = Lexeme.operators tokens
  /-- labels stand in the order of their declaration -/
  labels : program.artifacts.labels =
    (Lexeme.declarations 0 tokens).map (Prod.map id (instructionAddress limit))
  label : ∀ name address, program.artifacts.labels.lookup name = some address ↔
    ∃ before p q after, tokens = before ++ ⟨.identifier name, p⟩ :: ⟨.colon, q⟩ :: after ∧
      address = instructionAddress limit (Lexeme.operators before).length
  addressToLabel :
    Entries.KeepsLast (program.artifacts.labels.map Prod.swap) program.artifacts.addressToLabel
  lineToAddress : Entries.KeepsFirst ((places limit (Lexeme.operators tokens)).map Prod.swap)
    program.artifacts.lineToAddress
  addressToLine : Entries.KeepsLast (places limit (Lexeme.operators tokens))
    program.artifacts.addressToLine

theorem places_eq_located (limit : Word) (is : List Instruction) :
    places limit (is.map fun i => (i.op, i.position)) =
      (located limit is.toArray).map fun e => (e.1, e.2.position.line) := by
  simp [places, located, List.mapIdx_eq_zipIdx_map, List.zipIdx_map]

theorem getElem?_places (limit : Word) (operators : List (Operator × Position)) (n : Nat) :
    (places limit operators)[n]? =
      operators[n]?.map fun o => (instructionAddress limit n, o.2.line) := by
  rw [places, List.getElem?_mapIdx]

theorem keepsLast_addressToLine (setting : Setting) (labels : List (String × Word))
    (is : List Instruction) :
    Entries.KeepsLast (places setting.limit (is.map fun i => (i.op, i.position)))
      (Assembly.artifacts setting labels is.toArray).addressToLine := by
  have keeps := Entries.keepsLast_foldl (places setting.limit (is.map fun i => (i.op, i.position)))
  rwa [places_eq_located, List.foldl_map, ← places_eq_located] at keeps

theorem keepsFirst_lineToAddress (setting : Setting) (labels : List (String × Word))
    (is : List Instruction) :
    Entries.KeepsFirst
      ((places setting.limit (is.map fun i => (i.op, i.position))).map Prod.swap)
      (Assembly.artifacts setting labels is.toArray).lineToAddress := by
  have keeps := Entries.keepsFirst_foldl
    ((places setting.limit (is.map fun i => (i.op, i.position))).map Prod.swap)
  rwa [places_eq_located, List.map_map, List.foldl_map, ← List.map_map,
    ← places_eq_located] at keeps

/-- Each label stands in the map under its own name. -/
theorem lookup_label_iff {labels : List (String × Word)} {tokens : List Lexeme}
    (distinct : (labels.map (VariableTable.key ·.1)).Nodup)
    (declared : labels =
      (Lexeme.declarations 0 tokens).map (Prod.map id (instructionAddress limit)))
    (name : String) (address : Word) :
    labels.lookup name = some address ↔
      ∃ before p q after, tokens = before ++ ⟨.identifier name, p⟩ :: ⟨.colon, q⟩ :: after ∧
        address = instructionAddress limit (Lexeme.operators before).length := by
  have names : (labels.map Prod.fst).Nodup := by
    rw [← Function.comp_def VariableTable.key, ← List.map_map] at distinct
    exact distinct.of_map
  have member : (name, address) ∈ labels ↔
      ∃ n, (name, n) ∈ Lexeme.declarations 0 tokens ∧ address = instructionAddress limit n := by
    rw [declared, List.mem_map]
    constructor
    · rintro ⟨⟨name', n⟩, member, same⟩
      obtain ⟨rfl, rfl⟩ := Prod.mk.inj same
      exact ⟨n, member, rfl⟩
    · rintro ⟨n, member, rfl⟩
      exact ⟨(name, n), member, rfl⟩
  rw [Entries.lookup_eq_some_iff_mem names, member]
  constructor
  · rintro ⟨n, named, rfl⟩
    obtain ⟨before, p, q, after, split, rfl⟩ := Lexeme.mem_declarations_iff.mp named
    exact ⟨before, p, q, after, split, by rw [Nat.zero_add]⟩
  · rintro ⟨before, p, q, after, split, rfl⟩
    refine ⟨_, Lexeme.mem_declarations_iff.mpr ⟨before, p, q, after, split, ?_⟩, rfl⟩
    rw [Nat.zero_add]

section

variable {tokens : List Lexeme} {n : Nat} {i : Instruction}

theorem Documents.place (documents : Documents limit tokens program)
    (found : program.instructions[n]? = some i) :
    (places limit (Lexeme.operators tokens))[n]? =
      some (instructionAddress limit n, i.position.line) := by
  rw [← documents.instructions, getElem?_places, List.getElem?_map, Array.getElem?_toList, found]
  rfl

/-- An address that no later instruction shares has the line of its instruction. -/
theorem Documents.lookup_addressToLine (documents : Documents limit tokens program)
    (small : 4 * program.instructions.size ≤ UInt32.size)
    (found : program.instructions[n]? = some i) :
    program.artifacts.addressToLine.lookup (instructionAddress limit n) = some i.position.line := by
  have size : program.instructions.size = (Lexeme.operators tokens).length := by
    rw [← documents.instructions, List.length_map, Array.length_toList]
  refine documents.addressToLine.lookup n _ _ (documents.place found) fun m e later placed => ?_
  rw [getElem?_places, Option.map_eq_some_iff] at placed
  obtain ⟨o, placed, rfl⟩ := placed
  have within := (List.getElem?_eq_some_iff.mp placed).1
  intro same
  have cut := mod_eq_of_instructionAddress_eq same
  simp only [UInt32.size] at small cut
  omega

theorem toNat_instructionAddress (inside : limit.toNat + 4 * n < UInt32.size) :
    (instructionAddress limit n).toNat = limit.toNat + 4 * n := by
  rw [instructionAddress, UInt32.toNat_add, UInt32.toNat_ofNat', Nat.add_mod_mod]
  exact Nat.mod_eq_of_lt inside

/-- A line has the smallest address of the instructions on it. -/
theorem Documents.lookup_lineToAddress (documents : Documents limit tokens program)
    (small : limit.toNat + 4 * program.instructions.size ≤ UInt32.size)
    (found : program.instructions[n]? = some i) :
    ∃ m j, program.instructions[m]? = some j ∧ j.position.line = i.position.line ∧
      program.artifacts.lineToAddress.lookup i.position.line =
        some (instructionAddress limit m) ∧
      instructionAddress limit m ≤ instructionAddress limit n := by
  have within := (Array.getElem?_eq_some_iff.mp found).1
  have placed : ((places limit (Lexeme.operators tokens)).map Prod.swap)[n]? =
      some (i.position.line, instructionAddress limit n) := by
    rw [List.getElem?_map, documents.place found]
    rfl
  obtain ⟨m, first, earlier, placed, kept⟩ := documents.lineToAddress.exists_lookup placed
  rw [List.getElem?_map, getElem?_places, ← documents.instructions, List.getElem?_map,
    Array.getElem?_toList, Option.map_map, Option.map_map, Option.map_eq_some_iff] at placed
  obtain ⟨j, present, same⟩ := placed
  obtain ⟨line, rfl⟩ := Prod.mk.inj same
  refine ⟨m, j, present, line, kept, ?_⟩
  rw [UInt32.le_iff_toNat_le, toNat_instructionAddress (by omega),
    toNat_instructionAddress (by omega)]
  omega

end

/-- For every text, table of variables and limit, a program that is assembled agrees with the tokens
of the text: line by line, address by address, and label by label. -/
theorem documents_of_assemble (assembled : assemble source table limit = .ok program) :
    ∃ tokens, TokenStream.ofSource source = .ofList tokens ∧ Documents limit tokens program ∧
      (4 * program.instructions.size ≤ UInt32.size →
        ∀ n i, program.instructions[n]? = some i →
          program.artifacts.addressToLine.lookup (instructionAddress limit n) =
            some i.position.line) ∧
      (limit.toNat + 4 * program.instructions.size ≤ UInt32.size →
        ∀ n i, program.instructions[n]? = some i →
          ∃ m j, program.instructions[m]? = some j ∧ j.position.line = i.position.line ∧
            program.artifacts.lineToAddress.lookup i.position.line =
              some (instructionAddress limit m) ∧
            instructionAddress limit m ≤ instructionAddress limit n) := by
  have spelled := spells_of_ofTokens table none (TokenStream.ofSource source)
  obtain ⟨items, is, read, made, -, rfl⟩ := reading_of_assemble assembled
  rw [read] at spelled
  obtain ⟨tokens, whole, spells⟩ := spelled rfl
  have operators : is.map (fun i => (i.op, i.position)) = Lexeme.operators tokens :=
    (operators_of_instructions made).trans spells.operators_eq.symm
  have distinct := nodup_of_instructions made List.nodup_nil limit 0
  rw [List.nil_append] at distinct
  have labels := spells.labelsFrom_eq limit 0
  have documents : Documents limit tokens ⟨is.toArray,
      Assembly.artifacts ⟨table, limit⟩ (TwoPass.labelsFrom limit 0 items) is.toArray⟩ :=
    { instructions := operators
      labels
      label := lookup_label_iff distinct labels
      addressToLabel := keepsLast_addressToLabel _ _ _
      lineToAddress := operators ▸ keepsFirst_lineToAddress ⟨table, limit⟩ _ is
      addressToLine := operators ▸ keepsLast_addressToLine ⟨table, limit⟩ _ is }
  exact ⟨tokens, whole, documents, fun small n i => documents.lookup_addressToLine small,
    fun small n i => documents.lookup_lineToAddress small⟩

/-- The last of the labels at an address is shown there, and a line starts with its first
instruction. -/
theorem documents_of_assemble_stacked :
    ∃ program tokens, assemble "a: B: nop nop\nc: rep stosb\nd:" {} 20 = .ok program ∧
      TokenStream.ofSource "a: B: nop nop\nc: rep stosb\nd:" = .ofList tokens ∧
      Documents 20 tokens program ∧
      program.artifacts.labels = [("a", 20), ("B", 20), ("c", 28), ("d", 36)] ∧
      program.artifacts.addressToLabel = [(20, "B"), (28, "c"), (36, "d")] ∧
      program.artifacts.lineToAddress = [(0, 20), (1, 28)] ∧
      (20 : Word).toNat + 4 * program.instructions.size ≤ UInt32.size ∧
      ∀ n i, program.instructions[n]? = some i →
        program.artifacts.addressToLine.lookup (instructionAddress 20 n) =
          some i.position.line := by
  have runs : (assemble "a: B: nop nop\nc: rep stosb\nd:" {} 20).toOption.any (fun program =>
      program.instructions.size = 4 ∧
        program.artifacts.labels = [("a", 20), ("B", 20), ("c", 28), ("d", 36)] ∧
        program.artifacts.addressToLabel = [(20, "B"), (28, "c"), (36, "d")] ∧
        program.artifacts.lineToAddress = [(0, 20), (1, 28)]) := by decide +kernel
  cases assembled : assemble "a: B: nop nop\nc: rep stosb\nd:" {} 20 with
  | error e =>
      rw [assembled] at runs
      cases runs
  | ok program =>
      rw [assembled] at runs
      obtain ⟨size, labels, addressToLabel, lineToAddress⟩ := of_decide_eq_true runs
      obtain ⟨tokens, whole, documents, lines, -⟩ := documents_of_assemble assembled
      exact ⟨program, tokens, rfl, whole, documents, labels, addressToLabel, lineToAddress,
        by simp [size, UInt32.size], lines (by simp [size, UInt32.size])⟩

end Program

end ReducedX86
