import ReducedX86.Proofs.Assembly.Addressing
import ReducedX86.Proofs.Assembly.Advance
import ReducedX86.Proofs.Assembly.Source

/-!
Why assembling ends.

Products, sums and whole programs are read in loops that take a token at the start of each pass. A
pass that goes on leaves fewer tokens than it has found, so there are no more passes than tokens.
Each instruction and each label is paid for with a token of its own, and each token with a
character.
-/
namespace ReducedX86

/-! Loops over tokens -/

/-- What a pass comes to: the loop goes on with the remaining tokens, or has ended. -/
inductive Pass (σ ρ : Type)
  | again (state : σ) (rest : TokenStream)
  | ended (result : Except AssemblyError ρ)

structure Loop (σ ρ : Type) where
  /-- what comes of a state at the end of the text -/
  finish : σ → Except AssemblyError ρ
  /-- a pass, which has taken a token -/
  pass : σ → Lexeme → TokenStream → Pass σ ρ

namespace Loop

variable {σ ρ : Type}

/-- Takes at most `n` passes; `none` tells that these were not enough. -/
def run (loop : Loop σ ρ) (n : Nat) (state : σ) (s : TokenStream) :
    Option (Except AssemblyError ρ) :=
  match s, n with
  | .done, _ => some (loop.finish state)
  | .broken e, _ => some (.error e)
  | .token _ _, 0 => none
  | .token t rest, n + 1 =>
      match loop.pass state t rest with
      | .again state' rest' => run loop n state' rest'
      | .ended result => some result

/-- After some passes the loop goes on from another state with other tokens. -/
inductive Reaches (loop : Loop σ ρ) : Nat → σ → TokenStream → σ → TokenStream → Prop
  | start (state : σ) (s : TokenStream) : Reaches loop 0 state s state s
  | again {n : Nat} {state state' state'' : σ} {t : Lexeme} {rest rest' s : TokenStream}
      (goes : loop.pass state t rest = .again state' rest')
      (later : Reaches loop n state' rest' state'' s) :
      Reaches loop (n + 1) state (.token t rest) state'' s

/-- A pass that goes on has consumed a token. -/
def Consumes (loop : Loop σ ρ) : Prop :=
  ∀ {state : σ} {t : Lexeme} {rest : TokenStream} {state' : σ} {rest' : TokenStream},
    loop.pass state t rest = .again state' rest' → rest'.length < (TokenStream.token t rest).length

/-- The loop takes a function apart into passes. -/
structure Unrolls (loop : Loop σ ρ) (f : σ → TokenStream → Except AssemblyError ρ) : Prop where
  done (state : σ) : f state .done = loop.finish state
  broken (state : σ) (e : AssemblyError) : f state (.broken e) = .error e
  token (state : σ) (t : Lexeme) (rest : TokenStream) :
    f state (.token t rest) =
      match loop.pass state t rest with
      | .again state' rest' => f state' rest'
      | .ended result => result

variable {loop : Loop σ ρ} {f : σ → TokenStream → Except AssemblyError ρ}
  {state state' : σ} {s s' : TokenStream} {n : Nat}

theorem passes_le (consumes : loop.Consumes) (reached : loop.Reaches n state s state' s') :
    n + s'.length ≤ s.length := by
  induction reached with
  | start => omega
  | again goes later ih =>
      have fewer := consumes goes
      omega

theorem Unrolls.run_eq (unrolls : loop.Unrolls f) (consumes : loop.Consumes)
    (enough : s.length ≤ n) : loop.run n state s = some (f state s) := by
  induction n generalizing state s with
  | zero =>
      cases s with
      | done => rw [run, unrolls.done]
      | broken e => rw [run, unrolls.broken]
      | token t rest => cases enough
  | succ n ih =>
      cases s with
      | done => rw [run, unrolls.done]
      | broken e => rw [run, unrolls.broken]
      | token t rest =>
          rw [run, unrolls.token]
          cases goes : loop.pass state t rest with
          | ended result => rfl
          | again state' rest' =>
              have fewer := consumes goes
              exact ih (by omega)

/-- A loop that never ends within a pass has come to the end of the text when it succeeds. -/
theorem Unrolls.reaches_done (unrolls : loop.Unrolls f) (consumes : loop.Consumes)
    (fails : ∀ {state t rest result}, loop.pass state t rest = .ended (.ok result) → False)
    {result : ρ} (succeeds : f state s = .ok result) :
    ∃ n state', loop.Reaches n state s state' .done ∧ loop.finish state' = .ok result := by
  induction length : s.length using Nat.strong_induction_on generalizing state s with
  | _ m ih =>
      cases s with
      | done => exact ⟨0, state, .start .., (unrolls.done state).symm.trans succeeds⟩
      | broken e =>
          rw [unrolls.broken] at succeeds
          cases succeeds
      | token t rest =>
          rw [unrolls.token] at succeeds
          cases goes : loop.pass state t rest with
          | ended r =>
              rw [goes] at succeeds
              have ended : r = .ok result := succeeds
              exact absurd (ended ▸ goes) fails
          | again state' rest' =>
              rw [goes] at succeeds
              have fewer := consumes goes
              obtain ⟨n, last, reached, finished⟩ :=
                ih rest'.length (by omega) succeeds rfl
              exact ⟨n + 1, last, .again goes reached, finished⟩

/-- From a state the loop computes the function, with no more passes than there are tokens. -/
structure Computes (loop : Loop σ ρ) (state : σ) (f : TokenStream → Except AssemblyError ρ) :
    Prop where
  consumes : loop.Consumes
  passes {n : Nat} {s : TokenStream} {state' : σ} {s' : TokenStream}
      (reached : loop.Reaches n state s state' s') : n + s'.length ≤ s.length
  ends {n : Nat} {s : TokenStream} (enough : s.length ≤ n) : loop.run n state s = some (f s)

theorem Unrolls.computes (unrolls : loop.Unrolls f) (consumes : loop.Consumes)
    {g : TokenStream → Except AssemblyError ρ} (same : ∀ s, f state s = g s) :
    loop.Computes state g where
  consumes := consumes
  passes := passes_le consumes
  ends {n s} enough := by rw [← same, unrolls.run_eq consumes enough]

end Loop

namespace Assembly

/-! Products -/

/-- The product of factors, the last one first, and a term behind them. -/
def multiplied : List Term → Term → Except AssemblyError Term
  | [], right => .ok right
  | left :: outer, right =>
      match left.times right with
      | .error e => .error e
      | .ok term => multiplied outer term

/-- Reads factors; those that still wait for what is multiplied with them are the state. -/
def products (table : VariableTable) (start : Position) :
    Loop (List Term) (Term × TokenStream) where
  finish _ := .error (invalidReference start)
  pass waiting t rest :=
    match factor table t with
    | .error e => .ended (.error e)
    | .ok left =>
        match rest with
        | .done => .ended (.error (invalidReference start))
        | .broken e => .ended (.error e)
        | .token sign rest' =>
            match sign.token with
            | .add | .closeBracket =>
                .ended ((multiplied waiting left).map fun term => (term, .token sign rest'))
            | .multiply => .again (left :: waiting) rest'
            | _ => .ended (.error (invalidReference sign.position))

theorem consumes_products (table : VariableTable) (start : Position) :
    (products table start).Consumes := by
  intro waiting t rest waiting' rest' goes
  simp only [products] at goes
  split at goes
  · cases goes
  · split at goes
    · cases goes
    · cases goes
    · split at goes
      · cases goes
      · cases goes
      · cases goes
        simp only [TokenStream.length]
        omega
      · cases goes

theorem unrolls_products (table : VariableTable) (start : Position) :
    (products table start).Unrolls fun waiting s =>
      match product table start s with
      | .error e => .error e
      | .ok (term, after) => (multiplied waiting term).map fun term => (term, after) where
  done _ := rfl
  broken _ _ := rfl
  token waiting t rest := by
    rw [product]
    simp only [products]
    cases factor table t with
    | error e => rfl
    | ok left =>
        cases rest with
        | done => rfl
        | broken e => rfl
        | token sign rest' =>
            cases token : sign.token with
            | multiply =>
                simp only [token]
                cases product table start rest' with
                | error e => rfl
                | ok found =>
                    simp only [multiplied]
                    cases left.times found.1 <;> rfl
            | _ => simp only [token]

theorem computes_product (table : VariableTable) (start : Position) :
    (products table start).Computes [] (product table start) := by
  refine (unrolls_products table start).computes (consumes_products table start) fun s => ?_
  cases product table start s <;> rfl

/-! Sums -/

/-- Reads terms up to the closing bracket; the state holds those before, the last one first. -/
def sums (table : VariableTable) (start : Position) :
    Loop (List Term) (List Term × TokenStream) where
  finish _ := .error (invalidReference start)
  pass earlier t rest :=
    match product table start (.token t rest) with
    | .error e => .ended (.error e)
    | .ok (_, .done) => .ended (.error (invalidReference start))
    | .ok (_, .broken e) => .ended (.error e)
    | .ok (term, .token sign rest') =>
        match sign.token with
        | .closeBracket => .ended (.ok ((term :: earlier).reverse, rest'))
        | .add => .again (term :: earlier) rest'
        | _ => .ended (.error (invalidReference sign.position))

theorem consumes_sums (table : VariableTable) (start : Position) :
    (sums table start).Consumes := by
  intro earlier t rest earlier' rest' goes
  simp only [sums] at goes
  split at goes
  · cases goes
  · cases goes
  · cases goes
  · rename_i found
    have shorter := product_shorter table start _ found
    split at goes
    · cases goes
    · cases goes
      exact Nat.lt_of_succ_lt shorter
    · cases goes

theorem unrolls_sums (table : VariableTable) (start : Position) :
    (sums table start).Unrolls fun earlier s =>
      match sum table start s with
      | .error e => .error e
      | .ok (terms, after) => .ok (earlier.reverse ++ terms, after) where
  done _ := by rw [sum]; rfl
  broken _ _ := by rw [sum]; rfl
  token earlier t rest := by
    rw [sum_eq]
    simp only [sums]
    rcases product table start (.token t rest) with e | ⟨term, _ | e | ⟨sign, rest'⟩⟩
    · rfl
    · rfl
    · rfl
    · cases token : sign.token with
      | closeBracket => simp only [token, List.reverse_cons]
      | add =>
          simp only [token]
          cases sum table start rest' with
          | error e => rfl
          | ok found => simp only [List.reverse_cons, List.append_assoc, List.singleton_append]
      | _ => simp only [token]

theorem computes_sum (table : VariableTable) (start : Position) :
    (sums table start).Computes [] (sum table start) := by
  refine (unrolls_sums table start).computes (consumes_sums table start) fun s => ?_
  cases sum table start s <;> rfl

/-! Programs -/

/-- Reads a label or an instruction that starts with a token. -/
def item (setting : Setting) (d : Draft) (rep : Option Position) (t : Lexeme)
    (rest : TokenStream) : Parsed (Draft × Option Position) :=
  match t.token with
  | .identifier name =>
      if rep.isSome then .error (AssemblyErrorKind.operatorExpectedAfterRep.at t.position)
      else if setting.table.contains name then
        .error (AssemblyErrorKind.labelOrOperatorExpected.at t.position)
      else
        match Reading.afterColon t.position rest with
        | .error e => .error e
        | .ok after =>
            match d.declare setting.limit name t.position with
            | .error e => .error e
            | .ok d' => .ok ((d', rep), after)
  | .operator op =>
      if op.signature.repeats && rep.isSome then
        .error (AssemblyErrorKind.operatorExpectedAfterRep.at t.position)
      else if !op.signature.repeats && rep.isSome && !op.signature.repeatable then
        .error (AssemblyErrorKind.operatorNotRepeatable.at t.position)
      else
        match statement setting d op t.position rest with
        | .error e => .error e
        | .ok (d', after) =>
            .ok ((d', if op.signature.repeats then some t.position else none), after)
  | _ =>
      .error ((if rep.isSome then AssemblyErrorKind.operatorExpectedAfterRep
        else AssemblyErrorKind.labelOrOperatorExpected).at t.position)

/-- Reads labels and instructions; the state is what is assembled and the repeat mark that waits. -/
def programs (setting : Setting) : Loop (Draft × Option Position) Draft where
  finish state :=
    match state.2 with
    | some p => .error (AssemblyErrorKind.operatorExpectedAfterRep.at p)
    | none => .ok state.1
  pass state t rest :=
    match item setting state.1 state.2 t rest with
    | .error e => .ended (.error e)
    | .ok (state', rest') => .again state' rest'

/-- How many labels and instructions there are so far. -/
def Draft.emitted (d : Draft) : Nat := d.instructions.size + d.labels.length

variable {setting : Setting} {d d' : Draft} {rep rep' : Option Position} {t : Lexeme}
  {rest rest' : TokenStream}

theorem emitted_declare {limit : Word} {name : String} {p : Position}
    (declared : d.declare limit name p = .ok d') : d'.emitted = d.emitted + 1 := by
  rw [Draft.declare] at declared
  split at declared
  · cases declared
  · cases declared
    simp only [Draft.emitted, List.length_append, List.length_singleton]
    omega

theorem emitted_statement {op : Operator} {p : Position}
    (read : statement setting d op p rest = .ok (d', rest')) : d'.emitted = d.emitted + 1 := by
  rw [statement] at read
  split at read
  · cases read
  · split at read
    · cases read
    · rename_i emitted
      cases read
      simp only [Draft.emit] at emitted
      split at emitted
      · cases emitted
      · cases emitted
        simp only [Draft.emitted, Array.size_push]
        omega

/-- What is read comes to one more label or instruction, which its first token pays for. -/
theorem item_pays (read : item setting d rep t rest = .ok ((d', rep'), rest')) :
    d'.emitted = d.emitted + 1 ∧ rest'.length ≤ rest.length := by
  rw [item] at read
  split at read
  · split at read
    · cases read
    · split at read
      · cases read
      · split at read
        · cases read
        · rename_i ended
          split at read
          · cases read
          · rename_i declared
            cases read
            exact ⟨emitted_declare declared, (afterColon_shorter ended).le⟩
  · split at read
    · cases read
    · split at read
      · cases read
      · split at read
        · cases read
        · rename_i found
          cases read
          exact ⟨emitted_statement found, statement_le found⟩
  · cases read

theorem pass_programs {state state' : Draft × Option Position}
    (goes : (programs setting).pass state t rest = .again state' rest') :
    item setting state.1 state.2 t rest = .ok (state', rest') := by
  simp only [programs] at goes
  split at goes
  · cases goes
  · cases goes
    assumption

theorem consumes_programs (setting : Setting) : (programs setting).Consumes := by
  intro state t rest state' rest' goes
  exact Nat.lt_succ_of_le (item_pays (pass_programs goes)).2

theorem unrolls_programs (setting : Setting) :
    (programs setting).Unrolls fun state s => assembleFrom setting state.1 state.2 s where
  done state := by
    obtain ⟨d, _ | p⟩ := state <;> rw [assembleFrom] <;> rfl
  broken _ _ := by rw [assembleFrom]
  token := by
    rintro ⟨d, rep⟩ t rest
    simp only [programs, item]
    cases token : t.token with
    | identifier name =>
        by_cases waits : rep.isSome = true
        · simp [assembleFrom, token, waits]
        · by_cases declared : setting.table.contains name = true
          · simp [assembleFrom, token, waits, declared]
          · rw [assembleFrom_label token waits declared]
            simp only [if_neg waits, if_neg declared]
            cases Reading.afterColon t.position rest with
            | error e => rfl
            | ok after =>
                simp only
                cases d.declare setting.limit name t.position <;> rfl
    | operator op =>
        by_cases again : (op.signature.repeats && rep.isSome) = true
        · simp [assembleFrom, token, again]
        · by_cases refused : (!op.signature.repeats && rep.isSome && !op.signature.repeatable) = true
          · simp [assembleFrom, token, again, refused]
          · rw [assembleFrom_operator token again refused]
            simp only [if_neg again, if_neg refused]
            cases statement setting d op t.position rest <;> rfl
    | _ => simp [assembleFrom, token]

/-- At every stage the tokens that were consumed have paid for what is emitted. -/
theorem emitted_le {n : Nat} {state state' : Draft × Option Position} {s s' : TokenStream}
    (reached : (programs setting).Reaches n state s state' s') :
    state'.1.emitted + s'.length ≤ state.1.emitted + s.length := by
  induction reached with
  | start => omega
  | again goes later ih =>
      obtain ⟨more, fewer⟩ := item_pays (pass_programs goes)
      rw [TokenStream.length]
      omega

theorem size_resolve {known : List (String × Word)} {uses : List ForwardUse}
    {is js : Array Instruction} (resolved : resolve known uses is = .ok js) :
    js.size = is.size := by
  induction uses generalizing is with
  | nil => cases resolved; rfl
  | cons use rest ih =>
      rw [resolve] at resolved
      split at resolved
      · cases resolved
      · rw [ih resolved, Array.size_modify]

/-- What is assembled is what the last stage has. -/
theorem reaches_of_assembleFrom {s : TokenStream} (read : assembleFrom setting d rep s = .ok d') :
    ∃ n, (programs setting).Reaches n (d, rep) s (d', none) .done := by
  have fails {state : Draft × Option Position} {t : Lexeme} {rest : TokenStream} {result : Draft}
      (ended : (programs setting).pass state t rest = .ended (.ok result)) : False := by
    simp only [programs] at ended
    split at ended <;> cases ended
  have last : ∃ n state, (programs setting).Reaches n (d, rep) s state .done ∧
      (programs setting).finish state = .ok d' :=
    (unrolls_programs setting).reaches_done (consumes_programs setting) fails read
  obtain ⟨n, ⟨last, waits⟩, reached, finished⟩ := last
  cases waits with
  | some p => cases finished
  | none =>
      cases finished
      exact ⟨n, reached⟩

/-- A program that is assembled has no more instructions and labels than its source has tokens. -/
theorem size_le_of_ofTokens {tokens : TokenStream} {program : Program}
    (assembled : ofTokens setting tokens = .ok program) :
    program.instructions.size + program.artifacts.labels.length ≤ tokens.length := by
  rw [ofTokens] at assembled
  split at assembled
  · cases assembled
  · rename_i d read
    split at assembled
    · cases assembled
    · rename_i instructions resolved
      cases assembled
      obtain ⟨n, reached⟩ := reaches_of_assembleFrom read
      have paid : d.emitted + 0 ≤ Draft.emitted {} + tokens.length := emitted_le reached
      have nothing : Draft.emitted {} = 0 := rfl
      rw [Draft.emitted] at paid
      rw [size_resolve resolved]
      change d.instructions.size + d.labels.length ≤ _
      omega

end Assembly

/-- Each token takes a character at least. -/
theorem TokenStream.length_ofCursor_le (cursor : Cursor) :
    (ofCursor cursor).length ≤ cursor.rest.length := by
  fun_induction ofCursor cursor with
  | case1 | case2 => exact Nat.zero_le _
  | case3 cursor t after found ih =>
      have fewer := Cursor.length_rest_lt_of_next found
      rw [length]
      omega

namespace Program

open Assembly

/-- Whatever the source, a lexer moves on with each token that it hands out, and each loop of the
assembler takes some tokens in each pass and comes to its end. At every stage the tokens that were
consumed have paid for the instructions and labels, and so have they in the end. -/
theorem assemble_progresses (source : String) (table : VariableTable) (limit : Word) :
    let tokens := TokenStream.ofSource source
    let assembler := programs ⟨table, limit⟩
    (Lexer.Advances source ∧ (Lexer.ofSource source).stream = tokens) ∧
    (∀ start, (products table start).Computes [] (product table start)) ∧
    (∀ start, (sums table start).Computes [] (sum table start)) ∧
    assembler.Computes ({}, none) (assembleFrom ⟨table, limit⟩ {} none) ∧
    assembler.run source.length ({}, none) tokens =
      some (assembleFrom ⟨table, limit⟩ {} none tokens) ∧
    (∀ {n : Nat} {d : Draft} {rep : Option Position} {rest : TokenStream},
      assembler.Reaches n ({}, none) tokens (d, rep) rest →
        d.instructions.size + d.labels.length + rest.length ≤ tokens.length) ∧
    (∀ {program : Program}, assemble source table limit = .ok program →
      program.instructions.size + program.artifacts.labels.length ≤ tokens.length) ∧
    tokens.length ≤ source.length := by
  intro tokens assembler
  have short : tokens.length ≤ source.length := by
    have fewer := TokenStream.length_ofCursor_le (Cursor.ofSource source)
    rwa [Cursor.ofSource, String.length_toList] at fewer
  have computes : assembler.Computes ({}, none) (assembleFrom ⟨table, limit⟩ {} none) :=
    (unrolls_programs ⟨table, limit⟩).computes (consumes_programs _) fun _ => rfl
  refine ⟨⟨Lexer.advances source, rfl⟩, computes_product table, computes_sum table, computes,
    computes.ends short, ?_, size_le_of_ofTokens, short⟩
  intro n d rep rest reached
  have paid := emitted_le reached
  have nothing : Draft.emitted {} = 0 := rfl
  rwa [nothing, Nat.zero_add] at paid

/-- A label, two instructions and a sum in brackets, of which the second token is seen ahead. -/
theorem assemble_progresses_bracket :
    let source := "go: mov al, [ebx*2+4]\njmp go"
    let colon : Lexeme := ⟨.colon, ⟨0, 2, 2⟩⟩
    let lexer := Lexer.ofSource source
    ∃ program, assemble source {} 1040 = .ok program ∧
      program.instructions.size = 2 ∧ program.artifacts.labels = [("go", 1040)] ∧
      2 + 1 ≤ (TokenStream.ofSource source).length ∧
      (TokenStream.ofSource source).length ≤ source.length ∧
      lexer.answer [.next, .peek] .next = .ok (some colon) ∧
      Lexer.EndsBy source.toList colon (lexer.after [.next, .peek, .next]).place := by
  intro source colon lexer
  have runs : (assemble source {} 1040).toOption.any (fun program =>
      program.instructions.size = 2 ∧ program.artifacts.labels = [("go", 1040)]) := by
    decide +kernel
  have found : lexer.answer [.next, .peek] .next = .ok (some colon) := by decide +kernel
  obtain ⟨⟨advances, -⟩, -, -, -, -, -, sizes, short⟩ := assemble_progresses source {} 1040
  cases assembled : assemble source {} 1040 with
  | error e =>
      rw [assembled] at runs
      cases runs
  | ok program =>
      rw [assembled] at runs
      obtain ⟨size, labels⟩ := of_decide_eq_true runs
      have paid := sizes assembled
      rw [size, labels, List.length_singleton] at paid
      have reached :
          Lexer.EndsBy source.toList colon (lexer.after ([.next, .peek] ++ [.next])).place :=
        advances.reaches found
      exact ⟨program, rfl, size, labels, paid, short, found, reached⟩

end Program

end ReducedX86
