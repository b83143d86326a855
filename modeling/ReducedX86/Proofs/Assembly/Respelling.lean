import ReducedX86.Proofs.Assembly.Addressing
import ReducedX86.Proofs.Assembly.Source

/-!
What assembling does not look at.

Tokens carry their positions, and names are kept as they are written; but no decision depends on
either, as long as a name stands for the same variable and has the same key. So a text whose
positions are moved and whose names are respelled is assembled to the same program, with its
positions moved and its names respelled, or is refused for the same reason.
-/
namespace ReducedX86

/-- Other positions, and another way to write names. -/
structure Respelling where
  place : Position → Position
  name : String → String

namespace Respelling

open Assembly

variable (ρ : Respelling)

def token : Token → Token
  | .identifier name => .identifier (ρ.name name)
  | t => t

def lexeme (t : Lexeme) : Lexeme := ⟨ρ.token t.token, ρ.place t.position⟩

def kind : AssemblyErrorKind → AssemblyErrorKind
  | .duplicateLabel name => .duplicateLabel (ρ.name name)
  | .unknownLabel name => .unknownLabel (ρ.name name)
  | k => k

def error (e : AssemblyError) : AssemblyError := ⟨ρ.kind e.kind, e.position.map ρ.place⟩

def stream : TokenStream → TokenStream
  | .done => .done
  | .broken e => .broken (ρ.error e)
  | .token t rest => .token (ρ.lexeme t) (stream rest)

section Results

variable {α β : Type}

/-- The answer of a parser, with its value changed by `f`. -/
def result (f : α → β) : Except AssemblyError α → Except AssemblyError β
  | .ok a => .ok (f a)
  | .error e => .error (ρ.error e)

/-- The answer of a parser and the tokens it has left. -/
def parsed (f : α → β) : Parsed α → Parsed β := ρ.result (Prod.map f ρ.stream)

@[simp] theorem result_ok (f : α → β) (a : α) : ρ.result f (.ok a) = .ok (f a) := rfl

@[simp] theorem result_error (f : α → β) (e : AssemblyError) :
    ρ.result f (.error e) = .error (ρ.error e) := rfl

@[simp] theorem parsed_ok (f : α → β) (a : α) (rest : TokenStream) :
    ρ.parsed f (.ok (a, rest)) = .ok (f a, ρ.stream rest) := rfl

@[simp] theorem parsed_error (f : α → β) (e : AssemblyError) :
    ρ.parsed f (.error e) = .error (ρ.error e) := rfl

end Results

@[simp] theorem error_at (k : AssemblyErrorKind) (p : Position) :
    ρ.error (k.at p) = (ρ.kind k).at (ρ.place p) := rfl

@[simp] theorem lexeme_token (t : Lexeme) : (ρ.lexeme t).token = ρ.token t.token := rfl

@[simp] theorem lexeme_position (t : Lexeme) : (ρ.lexeme t).position = ρ.place t.position := rfl

@[simp] theorem stream_done : ρ.stream .done = .done := rfl

@[simp] theorem stream_broken (e : AssemblyError) : ρ.stream (.broken e) = .broken (ρ.error e) := rfl

@[simp] theorem stream_token (t : Lexeme) (rest : TokenStream) :
    ρ.stream (.token t rest) = .token (ρ.lexeme t) (ρ.stream rest) := rfl

/-- A respelling changes no token into another kind of token. -/
theorem token_eq_iff {t u : Token} (plain : ∀ name, u ≠ .identifier name) : ρ.token t = u ↔ t = u := by
  cases t with
  | identifier name =>
      constructor
      · intro same
        exact absurd same.symm (plain (ρ.name name))
      · intro same
        exact absurd same.symm (plain name)
  | _ => rfl

def term : Term → Term
  | .constant value p => .constant value (ρ.place p)
  | .register r p => .register r (ρ.place p)
  | .scaled r scale scaleAt p => .scaled r scale (ρ.place scaleAt) (ρ.place p)

def gathered (g : Gathered) : Gathered :=
  { g with index := g.index.map fun (r, scale, p) => (r, scale, ρ.place p) }

def reference : Reference → Reference
  | .operand o => .operand o
  | .forward name p => .forward (ρ.name name) (ρ.place p)

def use (u : ForwardUse) : ForwardUse :=
  { u with name := ρ.name u.name, position := ρ.place u.position }

def instruction (i : Instruction) : Instruction := { i with position := ρ.place i.position }

def label (l : String × Word) : String × Word := (ρ.name l.1, l.2)

/-- Declared labels are known by their keys, which a respelling keeps. -/
def draft (d : Draft) : Draft :=
  { d with
    labels := d.labels.map ρ.label
    uses := d.uses.map ρ.use
    instructions := d.instructions.map ρ.instruction }

/-- Names stand for the same variables, and name the same labels. -/
structure Keeps (table table' : VariableTable) : Prop where
  finds : ∀ name, table'.find? (ρ.name name) = table.find? name
  key : ∀ name, VariableTable.key (ρ.name name) = VariableTable.key name

end Respelling

namespace Assembly

variable {ρ : Respelling} {table table' : VariableTable}

/-! Memory operands -/

section Sums

variable (keeps : ρ.Keeps table table')

theorem times_respelled (left right : Term) :
    (ρ.term left).times (ρ.term right) = ρ.result ρ.term (left.times right) := by
  cases left <;> cases right <;> rfl

include keeps

theorem factor_respelled (t : Lexeme) :
    factor table' (ρ.lexeme t) = ρ.result ρ.term (factor table t) := by
  obtain ⟨token, p⟩ := t
  cases token with
  | identifier name =>
      have found := keeps.finds name
      simp only [factor, Respelling.lexeme, Respelling.token, found]
      cases table.find? name <;> rfl
  | _ => rfl

theorem product_respelled (start : Position) (s : TokenStream) :
    product table' (ρ.place start) (ρ.stream s) = ρ.parsed ρ.term (product table start s) := by
  fun_induction product table start s with
  | case11 t left found sign rest noPlus noBracket noStar =>
      have other : product table' (ρ.place start) (ρ.stream (.token t (.token sign rest))) =
          .error (invalidReference (ρ.lexeme sign).position) := by
        obtain ⟨token, p⟩ := sign
        simp only [product, Respelling.stream_token, factor_respelled keeps, found,
          Respelling.result_ok]
        cases token <;> first | rfl | contradiction
      exact other
  | _ =>
      simp_all [product, factor_respelled keeps, times_respelled, invalidReference, Respelling.kind,
        Respelling.token]

theorem sum_respelled (start : Position) (s : TokenStream) :
    sum table' (ρ.place start) (ρ.stream s) = ρ.parsed (List.map ρ.term) (sum table start s) := by
  have first (s : TokenStream) := product_respelled keeps start s
  fun_induction sum table start s with
  | case7 s term sign rest found noBracket noPlus =>
      obtain ⟨token, p⟩ := sign
      rw [sum_eq, first, found]
      cases token <;> first | rfl | contradiction
  | case4 s term sign rest found closes | case5 s term sign rest found adds e failed ih
  | case6 s term sign rest found adds terms after read ih =>
      rw [sum_eq, first, found]
      simp_all [Respelling.token]
  | _ =>
      rw [sum_eq, first]
      simp_all [invalidReference, Respelling.kind]

end Sums

theorem add_respelled (g : Gathered) (t : Term) :
    (ρ.gathered g).add (ρ.term t) = ρ.result ρ.gathered (g.add t) := by
  obtain ⟨displacement, base, index⟩ := g
  cases t <;> cases base <;> cases index <;> rfl

theorem ofTerms_respelled (terms : List Term) (size : Nat) :
    ofTerms (terms.map ρ.term) size = ρ.result id (ofTerms terms size) := by
  have gathers (terms : List Term) (g : Gathered) :
      (terms.map ρ.term).foldlM Gathered.add (ρ.gathered g) =
        ρ.result ρ.gathered (terms.foldlM Gathered.add g) := by
    induction terms generalizing g with
    | nil => rfl
    | cons t rest ih =>
        simp only [List.map_cons, List.foldlM_cons, add_respelled]
        cases g.add t with
        | error e => rfl
        | ok g' => exact ih g'
  have all := gathers terms.reverse {}
  rw [ofTerms, ← List.map_reverse]
  rw [show ρ.gathered {} = {} from rfl] at all
  rw [all, ofTerms]
  cases terms.reverse.foldlM Gathered.add {} with
  | error e => rfl
  | ok g =>
      obtain ⟨displacement, base, index⟩ := g
      rcases index with _ | ⟨r, scale, p⟩
      · rfl
      · simp only [Respelling.result_ok, Respelling.gathered, Option.map_some]
        cases Scale.ofFactor? scale <;> rfl

theorem expect_respelled {token : Token} {kind : AssemblyErrorKind} (fallback : Position)
    (plain : ∀ name, token ≠ .identifier name) (unnamed : ρ.kind kind = kind) (s : TokenStream) :
    expect token kind (ρ.place fallback) (ρ.stream s) =
      ρ.result ρ.stream (expect token kind fallback s) := by
  cases s with
  | done => simp [expect, unnamed]
  | broken e => rfl
  | token t rest =>
      simp only [expect, Respelling.stream_token, Respelling.lexeme_token, ρ.token_eq_iff plain]
      split
      · rfl
      · simp [unnamed]

theorem sizeMark_respelled (first : Lexeme) (s : TokenStream) :
    sizeMark (ρ.lexeme first) (ρ.stream s) = ρ.parsed id (sizeMark first s) := by
  obtain ⟨token, p⟩ := first
  cases token with
  | width w =>
      simp only [sizeMark, Respelling.lexeme, Respelling.token]
      rw [expect_respelled p (by simp) rfl]
      cases expect .ptr .ptrExpected p s with
      | error e => rfl
      | ok s' =>
          simp only [Respelling.result_ok]
          rw [expect_respelled p (by simp) rfl]
          cases expect .openBracket .bracketExpected p s' <;> rfl
  | _ => rfl

theorem memoryOperand_respelled (keeps : ρ.Keeps table table') (first : Lexeme) (s : TokenStream) :
    memoryOperand table' (ρ.lexeme first) (ρ.stream s) =
      ρ.parsed id (memoryOperand table first s) := by
  rw [memoryOperand, memoryOperand, sizeMark_respelled]
  cases sizeMark first s with
  | error e => rfl
  | ok opened =>
      obtain ⟨size, s'⟩ := opened
      simp only [Respelling.parsed_ok, Respelling.lexeme_position, sum_respelled keeps]
      cases sum table first.position s' with
      | error e => rfl
      | ok read =>
          obtain ⟨terms, after⟩ := read
          simp only [Respelling.parsed_ok, ofTerms_respelled, id]
          cases ofTerms terms size <;> rfl

/-! Statements -/

section Statements

variable (keeps : ρ.Keeps table table') (limit : Word) (d : Draft) (p : Position)
include keeps

theorem declare_respelled (name : String) :
    (ρ.draft d).declare limit (ρ.name name) (ρ.place p) =
      ρ.result ρ.draft (d.declare limit name p) := by
  have size : (ρ.draft d).instructions.size = d.instructions.size := Array.size_map
  simp only [Draft.declare, Draft.nextAddress, size, keeps.key]
  have known : (ρ.draft d).known = d.known := rfl
  rw [known]
  split
  · rfl
  · simp [Respelling.draft, Respelling.label]

theorem resolveName_respelled (name : String) :
    resolveName ⟨table', limit⟩ (ρ.draft d) (ρ.name name) (ρ.place p) =
      ρ.reference (resolveName ⟨table, limit⟩ d name p) := by
  have known : (ρ.draft d).known = d.known := rfl
  simp only [resolveName, keeps.finds, keeps.key, known]
  cases table.find? name with
  | some v => rfl
  | none => cases d.known.lookup (VariableTable.key name) <;> rfl

theorem operand_respelled (s : TokenStream) :
    operand ⟨table', limit⟩ (ρ.draft d) (ρ.place p) (ρ.stream s) =
      ρ.parsed ρ.reference (operand ⟨table, limit⟩ d p s) := by
  cases s with
  | done => rfl
  | broken e => rfl
  | token t rest =>
      have read := memoryOperand_respelled keeps t rest
      obtain ⟨token, q⟩ := t
      cases token with
      | width w | openBracket =>
          simp only [operand, Respelling.stream_token]
          simp only [Respelling.lexeme_token, Respelling.token, read]
          cases memoryOperand table _ rest <;> rfl
      | identifier name =>
          simp only [operand, Respelling.stream_token, Respelling.lexeme, Respelling.token,
            resolveName_respelled keeps, Respelling.parsed_ok]
      | _ => rfl

theorem operands_respelled (op : Operator) (s : TokenStream) :
    operands ⟨table', limit⟩ (ρ.draft d) op (ρ.place p) (ρ.stream s) =
      ρ.parsed (Prod.map (Option.map ρ.reference) (Option.map ρ.reference))
        (operands ⟨table, limit⟩ d op p s) := by
  have first := operand_respelled keeps limit d p
  unfold operands
  split
  · rfl
  · split
    · rcases s with _ | e | ⟨⟨token, q⟩, rest⟩
      · rfl
      · rfl
      · cases token <;> rfl
    · rw [first]
      cases operand ⟨table, limit⟩ d p s with
      | error e => rfl
      | ok read =>
          obtain ⟨r, s'⟩ := read
          simp only [Respelling.parsed_ok]
          split
          · rfl
          · rw [expect_respelled p (by simp) rfl]
            cases expect .comma .commaExpected p s' with
            | error e => rfl
            | ok s'' =>
                simp only [Respelling.result_ok, first]
                cases operand ⟨table, limit⟩ d p s'' <;> rfl

omit keeps in
theorem emit_respelled (op : Operator) (first second : Option Reference) :
    (ρ.draft d).emit op (first.map ρ.reference) (second.map ρ.reference) (ρ.place p) =
      ρ.result ρ.draft (d.emit op first second p) := by
  have provisional (r : Option Reference) :
      (r.map ρ.reference).map Reference.provisional = r.map Reference.provisional := by
    rcases r with _ | _ | _ <;> rfl
  have size : (ρ.draft d).instructions.size = d.instructions.size := Array.size_map
  have note (r : Option Reference) (i : Nat) (second : Bool) :
      ((r.map ρ.reference).bind (·.use? i second)).toList =
        ((r.bind (·.use? i second)).toList).map ρ.use := by
    rcases r with _ | _ | _ <;> rfl
  simp only [Draft.emit, provisional, size, note]
  split
  · rfl
  · simp [Respelling.draft, Respelling.instruction]

theorem statement_respelled (op : Operator) (s : TokenStream) :
    statement ⟨table', limit⟩ (ρ.draft d) op (ρ.place p) (ρ.stream s) =
      ρ.parsed ρ.draft (statement ⟨table, limit⟩ d op p s) := by
  rw [statement, statement, operands_respelled keeps]
  cases operands ⟨table, limit⟩ d op p s with
  | error e => rfl
  | ok read =>
      obtain ⟨⟨first, second⟩, after⟩ := read
      simp only [Respelling.parsed_ok, Prod.map, emit_respelled]
      cases d.emit op first second p <;> rfl

end Statements

/-! Whole texts -/

theorem afterColon_respelled (p : Position) (s : TokenStream) :
    Reading.afterColon (ρ.place p) (ρ.stream s) = ρ.result ρ.stream (Reading.afterColon p s) := by
  rcases s with _ | e | ⟨⟨token, q⟩, rest⟩
  · rfl
  · rfl
  · cases token <;> rfl

theorem contains_respelled (keeps : ρ.Keeps table table') (name : String) :
    table'.contains (ρ.name name) = table.contains name := by
  rw [VariableTable.contains, keeps.finds, VariableTable.contains]

theorem assembleFrom_respelled (keeps : ρ.Keeps table table') (limit : Word) (d : Draft)
    (rep : Option Position) (s : TokenStream) :
    assembleFrom ⟨table', limit⟩ (ρ.draft d) (rep.map ρ.place) (ρ.stream s) =
      ρ.result ρ.draft (assembleFrom ⟨table, limit⟩ d rep s) := by
  induction length : s.length using Nat.strongRecOn generalizing d rep s with
  | ind n ih =>
      have marked : (rep.map ρ.place).isSome = rep.isSome := Option.isSome_map
      cases s with
      | done => cases rep <;> simp [assembleFrom, Respelling.kind]
      | broken e => simp [assembleFrom]
      | token t rest =>
          obtain ⟨token, p⟩ := t
          cases token with
          | identifier name =>
              have contained := contains_respelled keeps name
              by_cases pending : rep.isSome
              · simp [assembleFrom, Respelling.lexeme, Respelling.token, Respelling.kind, pending]
              · by_cases declared : table.contains name
                · simp [assembleFrom, Respelling.lexeme, Respelling.token, Respelling.kind, pending,
                    contained, declared]
                · rw [Respelling.stream_token, assembleFrom_label rfl pending declared,
                    assembleFrom_label rfl (marked ▸ pending) (contained ▸ declared)]
                  simp only [Respelling.lexeme_position, afterColon_respelled]
                  cases ended : Reading.afterColon p rest with
                  | error e => rfl
                  | ok after =>
                      have shorter := afterColon_shorter ended
                      simp only [Respelling.result_ok, declare_respelled keeps]
                      cases d.declare limit name p with
                      | error e => rfl
                      | ok d' =>
                          exact ih _ (by rw [← length, TokenStream.length]; omega) d' rep after rfl
          | operator op =>
              by_cases again : op.signature.repeats && rep.isSome
              · simp [assembleFrom, Respelling.lexeme, Respelling.token, Respelling.kind, again]
              · by_cases refused : !op.signature.repeats && rep.isSome && !op.signature.repeatable
                · simp [assembleFrom, Respelling.lexeme, Respelling.token, Respelling.kind, again,
                    refused]
                · rw [Respelling.stream_token, assembleFrom_operator rfl again refused,
                    assembleFrom_operator rfl (marked ▸ again) (marked ▸ refused)]
                  simp only [Respelling.lexeme_position, statement_respelled keeps]
                  cases read : statement ⟨table, limit⟩ d op p rest with
                  | error e => rfl
                  | ok answer =>
                      obtain ⟨d', after⟩ := answer
                      have shorter := statement_le read
                      have next : (if op.signature.repeats then some (ρ.place p) else none) =
                          (if op.signature.repeats then some p else none).map ρ.place := by
                        split <;> rfl
                      simp only [Respelling.parsed_ok, next]
                      exact ih _ (by rw [← length, TokenStream.length]; omega) d' _ after rfl
          | _ =>
              simp only [assembleFrom, Respelling.stream_token, Respelling.lexeme,
                Respelling.token, marked]
              cases rep <;> rfl

/-- Working off the uses looks at the keys of names only. -/
theorem resolve_respelled (keeps : ρ.Keeps table table') (known : List (String × Word))
    (uses : List ForwardUse) (is : Array Instruction) :
    resolve known (uses.map ρ.use) (is.map ρ.instruction) =
      ρ.result (Array.map ρ.instruction) (resolve known uses is) := by
  induction uses generalizing is with
  | nil => rfl
  | cons u rest ih =>
      have patched (address : Word) :
          (is.map ρ.instruction).modify u.instruction ((ρ.use u).patch address) =
            (is.modify u.instruction (u.patch address)).map ρ.instruction := by
        have one (i : Instruction) :
            (ρ.use u).patch address (ρ.instruction i) = ρ.instruction (u.patch address i) := by
          cases second : u.second <;> simp [ForwardUse.patch, Respelling.use,
            Respelling.instruction, second]
        apply Array.ext
        · simp
        · intro i first second
          simp only [Array.getElem_modify, Array.getElem_map, one]
          split <;> rfl
      simp only [List.map_cons, resolve, Respelling.use, keeps.key]
      cases known.lookup (VariableTable.key u.name) with
      | none => rfl
      | some address =>
          exact (congrArg (resolve known (rest.map ρ.use)) (patched address)).trans (ih _)

/-- What is made of the tokens before the artifacts: the labels and the instructions. -/
def assembled (setting : Setting) (tokens : TokenStream) :
    Except AssemblyError (List (String × Word) × Array Instruction) :=
  match assembleFrom setting {} none tokens with
  | .error e => .error e
  | .ok d => (resolve d.known d.uses d.instructions).map fun instructions => (d.labels, instructions)

theorem ofTokens_eq (setting : Setting) (tokens : TokenStream) :
    ofTokens setting tokens = (assembled setting tokens).map fun (labels, instructions) =>
      ⟨instructions, artifacts setting labels instructions⟩ := by
  rw [ofTokens, assembled]
  cases assembleFrom setting {} none tokens with
  | error e => rfl
  | ok d =>
      simp only
      cases resolve d.known d.uses d.instructions <;> rfl

theorem assembled_respelled (keeps : ρ.Keeps table table') (limit : Word) (tokens : TokenStream) :
    assembled ⟨table', limit⟩ (ρ.stream tokens) =
      ρ.result (Prod.map (List.map ρ.label) (Array.map ρ.instruction))
        (assembled ⟨table, limit⟩ tokens) := by
  have read := assembleFrom_respelled keeps limit {} none tokens
  have nothing : ρ.draft {} = {} := by simp [Respelling.draft]
  rw [nothing, Option.map_none] at read
  rw [assembled, assembled, read]
  cases assembleFrom ⟨table, limit⟩ {} none tokens with
  | error e => rfl
  | ok d =>
      simp only [Respelling.result_ok]
      have resolved := resolve_respelled keeps d.known d.uses d.instructions
      change (resolve d.known (d.uses.map ρ.use) (d.instructions.map ρ.instruction)).map _ = _
      rw [resolved]
      cases resolve d.known d.uses d.instructions <;> rfl

/-- Tables in which every name finds the same variable are as good as each other. -/
theorem assembled_congr (same : ∀ name, table'.find? name = table.find? name) (limit : Word)
    (tokens : TokenStream) : assembled ⟨table', limit⟩ tokens = assembled ⟨table, limit⟩ tokens := by
  let ρ : Respelling := ⟨id, id⟩
  have keeps : ρ.Keeps table table' := ⟨same, fun _ => rfl⟩
  have kind (k : AssemblyErrorKind) : ρ.kind k = k := by cases k <;> rfl
  have error (e : AssemblyError) : ρ.error e = e := by
    simp only [Respelling.error, kind, ρ, Option.map_id, id]
  have lexeme (t : Lexeme) : ρ.lexeme t = t := by
    obtain ⟨token, p⟩ := t
    cases token <;> rfl
  have stream : ρ.stream tokens = tokens := by
    induction tokens with
    | done => rfl
    | broken e => rw [Respelling.stream_broken, error]
    | token t rest ih => rw [Respelling.stream_token, lexeme, ih]
  have read := assembled_respelled keeps limit tokens
  rw [stream] at read
  rw [read]
  cases assembled ⟨table, limit⟩ tokens with
  | error e => exact congrArg Except.error (error e)
  | ok answer =>
      have label : ρ.label = id := rfl
      have instruction : ρ.instruction = id := rfl
      simp [label, instruction]

end Assembly

end ReducedX86
