import Mathlib.Data.List.Forall2
import ReducedX86.Proofs.Assembly.Expression

/-!
The parser of memory operands accepts the expressions that fit an operand, and means their value.

Each part of the parser is compared with the expression that its tokens spell: it accepts under a
condition on the expression, and its answer then denotes the expression. That an accepted text
spells an expression at all is shown apart from that.
-/
namespace ReducedX86

/-- The stream starts with the tokens, and `after` is what follows them. -/
inductive TokenStream.Begins : TokenStream → List Token → TokenStream → Prop
  | nil {s : TokenStream} : Begins s [] s
  | cons {t : Lexeme} {rest after : TokenStream} {token : Token} {tokens : List Token}
      (same : t.token = token) (follows : Begins rest tokens after) :
      Begins (.token t rest) (token :: tokens) after

theorem TokenStream.begins_append_iff {xs ys : List Token} {s after : TokenStream} :
    s.Begins (xs ++ ys) after ↔ ∃ middle, s.Begins xs middle ∧ middle.Begins ys after := by
  induction xs generalizing s with
  | nil =>
      constructor
      · intro spelled
        exact ⟨s, .nil, spelled⟩
      · rintro ⟨middle, ⟨⟩, spelled⟩
        exact spelled
  | cons x xs ih =>
      constructor
      · rintro ⟨⟩
        rename_i same follows
        obtain ⟨middle, first, second⟩ := ih.mp follows
        exact ⟨middle, .cons same first, second⟩
      · rintro ⟨middle, ⟨⟩, second⟩
        rename_i same first
        exact .cons same (ih.mpr ⟨middle, first, second⟩)

namespace Assembly

/-- The answer is an error unless `P` holds, and otherwise one of which `Q` holds. -/
def Accepts {α : Type} (x : Except AssemblyError α) (P : Prop) (Q : α → Prop) : Prop :=
  match x with
  | .ok a => P ∧ Q a
  | .error _ => ¬ P

section

variable {α : Type} {x : Except AssemblyError α} {P : Prop} {Q : α → Prop}

theorem Accepts.of_error {e : AssemblyError} (accepts : Accepts x P Q) (failed : x = .error e) :
    ¬ P := by
  rw [failed] at accepts
  exact accepts

theorem Accepts.of_ok {a : α} (accepts : Accepts x P Q) (read : x = .ok a) : P ∧ Q a := by
  rw [read] at accepts
  exact accepts

end

/-- What a parsed product has kept of the product. -/
inductive Term.Denotes (table : VariableTable) : Term → Product → Prop
  | constant {p : Product} {value : Word} {position : Position} (free : p.registers = [])
      (same : value = UInt32.ofNat (p.scale table)) :
      Denotes table (.constant value position) p
  | register {r : Register} {position : Position} :
      Denotes table (.register r position) (.single (.register r))
  | scaled {p : Product} {r : Register} {scale : Word} {scaleAt position : Position}
      (multiplies : p.multiplies) (alone : p.registers = [r])
      (same : scale = UInt32.ofNat (p.scale table)) :
      Denotes table (.scaled r scale scaleAt position) p

section Parsers

variable {table : VariableTable} {f : Factor} {p : Product} {t : Lexeme} {start : Position}

theorem factor_accepts (same : t.token = f.token) :
    Accepts (factor table t) (f.isDeclared table) (·.Denotes table (.single f)) := by
  rw [factor, same]
  cases f with
  | number value => exact ⟨rfl, .constant rfl (by simp [Factor.constant?])⟩
  | register r => exact ⟨rfl, .register⟩
  | named name =>
      simp only [Factor.token, Factor.isDeclared, VariableTable.contains]
      cases found : table.find? name with
      | none => exact Bool.false_ne_true
      | some v => exact ⟨rfl, .constant rfl (by simp [Factor.constant?, found])⟩

theorem times_accepts {left right : Term} (first : left.Denotes table (.single f))
    (second : right.Denotes table p) :
    Accepts (left.times right) ((Product.times f p).registers.length ≤ 1)
      (·.Denotes table (.times f p)) := by
  cases first with
  | scaled multiplies => simp at multiplies
  | constant free same =>
      have none : f.register? = none := by simpa using free
      rw [Product.scale_single] at same
      cases second with
      | constant free' same' =>
          have free : (Product.times f p).registers = [] := by simp [none, free']
          exact ⟨by simp [free], .constant free (by simp [same, same', UInt32.ofNat_mul])⟩
      | @register r =>
          have alone : (Product.times f (.single (.register r))).registers = [r] := by
            simp [none]
          exact ⟨by simp [alone], .scaled (by simp [Product.hasRegister]) alone (by simp [same])⟩
      | @scaled _ r _ _ _ multiplies alone same' =>
          have alone : (Product.times f p).registers = [r] := by simp [none, alone]
          exact ⟨by simp [alone], .scaled (by simp [Product.hasRegister, alone]) alone
            (by simp [same, same', UInt32.ofNat_mul])⟩
  | @register r _ =>
      cases second with
      | constant free' same' =>
          have alone : (Product.times (.register r) p).registers = [r] := by
            simp [free']
          exact ⟨by simp [alone], .scaled (by simp [Product.hasRegister]) alone (by simp [same'])⟩
      | register => simp [Term.times, Accepts]
      | scaled multiplies alone same' => simp [Term.times, Accepts, alone]

theorem sound_single_iff : (Product.single f).Sound table ↔ f.isDeclared table := by
  cases f <;> simp [Product.Sound, Product.factors, Factor.register?]

theorem sound_times_iff :
    (Product.times f p).Sound table ↔
      f.isDeclared table ∧ p.Sound table ∧ (Product.times f p).registers.length ≤ 1 := by
  have fewer (few : (Product.times f p).registers.length ≤ 1) : p.registers.length ≤ 1 := by
    rw [Product.registers_times, List.length_append] at few
    omega
  simp only [Product.Sound, Product.factors, List.forall_mem_cons]
  constructor
  · rintro ⟨⟨declared, all⟩, few⟩
    exact ⟨declared, ⟨all, fewer few⟩, few⟩
  · rintro ⟨declared, ⟨all, -⟩, few⟩
    exact ⟨⟨declared, all⟩, few⟩

theorem product_accepts {s rest : TokenStream} {sign : Lexeme}
    (spelled : s.Begins p.tokens (.token sign rest))
    (stops : sign.token = .add ∨ sign.token = .closeBracket) :
    Accepts (product table start s) (p.Sound table) fun found =>
      found.2 = .token sign rest ∧ found.1.Denotes table p := by
  induction p generalizing s with
  | single f =>
      rcases spelled with _ | ⟨same, ⟨⟩⟩
      rename_i t
      have read : Accepts (factor table t) (f.isDeclared table)
          (·.Denotes table (.single f)) := factor_accepts same
      rw [product]
      cases found : factor table t with
      | error e => exact fun sound => read.of_error found (sound_single_iff.mp sound)
      | ok term =>
          obtain ⟨declared, denotes⟩ := read.of_ok found
          have sound := sound_single_iff.mpr declared
          rcases stops with stop | stop <;> simp only [stop] <;> exact ⟨sound, rfl, denotes⟩
  | times f p ih =>
      rcases spelled with _ | ⟨same, _ | ⟨star, follows⟩⟩
      rename_i t t' rest'
      have read : Accepts (factor table t) (f.isDeclared table)
          (·.Denotes table (.single f)) := factor_accepts same
      have more := ih follows
      rw [product]
      cases found : factor table t with
      | error e => exact fun sound => read.of_error found (sound_times_iff.mp sound).1
      | ok left =>
          obtain ⟨declared, denotes⟩ := read.of_ok found
          simp only [star]
          cases found : product table start rest' with
          | error e => exact fun sound => more.of_error found (sound_times_iff.mp sound).2.1
          | ok answer =>
              obtain ⟨right, after⟩ := answer
              obtain ⟨sound, rfl, denotes'⟩ := more.of_ok found
              have combined := times_accepts denotes denotes'
              simp only
              cases found : left.times right with
              | error e => exact fun sound => combined.of_error found (sound_times_iff.mp sound).2.2
              | ok term =>
                  obtain ⟨few, denotes⟩ := combined.of_ok found
                  exact ⟨sound_times_iff.mpr ⟨declared, sound, few⟩, rfl, denotes⟩

/-- What a sum makes of its first product. -/
theorem sum_eq (s : TokenStream) :
    sum table start s =
      match product table start s with
      | .error e => .error e
      | .ok (_, .done) => .error (invalidReference start)
      | .ok (_, .broken e) => .error e
      | .ok (term, .token sign rest) =>
          match sign.token with
          | .closeBracket => .ok ([term], rest)
          | .add =>
              match sum table start rest with
              | .error e => .error e
              | .ok (terms, after) => .ok (term :: terms, after)
          | _ => .error (invalidReference sign.position) := by
  rw [sum]
  split <;> rename_i found <;> exact found ▸ rfl

theorem sum_accepts {e : Expression} {s after : TokenStream}
    (spelled : s.Begins (e.tokens ++ [.closeBracket]) after) :
    Accepts (sum table start s) (∀ p ∈ e.products, p.Sound table) fun found =>
      found.2 = after ∧ List.Forall₂ (Term.Denotes table) found.1 e.products := by
  induction e generalizing s with
  | single p =>
      obtain ⟨middle, first, _ | ⟨closes, ⟨⟩⟩⟩ := TokenStream.begins_append_iff.mp spelled
      have read : Accepts (product table start s) (p.Sound table) _ :=
        product_accepts first (.inr closes)
      simp only [Expression.products, List.mem_singleton, forall_eq]
      cases found : product table start s with
      | error e =>
          rw [sum_eq, found]
          exact read.of_error found
      | ok answer =>
          obtain ⟨term, after⟩ := answer
          obtain ⟨sound, rfl, denotes⟩ := read.of_ok found
          rw [sum_eq, found]
          simp only [closes]
          exact ⟨sound, rfl, .cons denotes .nil⟩
  | plus p e ih =>
      rw [Expression.tokens, List.append_assoc, List.cons_append] at spelled
      obtain ⟨middle, first, _ | ⟨adds, follows⟩⟩ := TokenStream.begins_append_iff.mp spelled
      have read : Accepts (product table start s) (p.Sound table) _ :=
        product_accepts first (.inl adds)
      have more := ih follows
      simp only [Expression.products, List.forall_mem_cons]
      cases found : product table start s with
      | error e =>
          rw [sum_eq, found]
          exact fun sound => read.of_error found sound.1
      | ok answer =>
          obtain ⟨term, after⟩ := answer
          obtain ⟨sound, rfl, denotes⟩ := read.of_ok found
          rw [sum_eq, found]
          simp only [adds]
          cases found : sum table start _ with
          | error e => exact fun sound => more.of_error found sound.2
          | ok answer =>
              obtain ⟨sound', rest, denote⟩ := more.of_ok found
              exact ⟨⟨sound, sound'⟩, rest, .cons denotes denote⟩

def Term.value (registers : RegisterFile) : Term → Word
  | constant value _ => value
  | register r _ => registers.get r
  | scaled r scale _ _ => registers.get r * scale

theorem Term.Denotes.value_eq {t : Term} (denotes : t.Denotes table p)
    (registers : RegisterFile) :
    t.value registers = UInt32.ofNat (p.value table registers) := by
  cases denotes with
  | constant free same => simp [Term.value, Product.value_eq, free, same]
  | register => simp [Term.value, Product.value_eq]
  | scaled multiplies alone same =>
      simp [Term.value, Product.value_eq, alone, same, UInt32.ofNat_mul]

end Parsers

/-! The terms of an operand -/

section Terms

variable {table : VariableTable} {products : List Product} {g g' : Gathered} {p : Product}
  {r : Register}

namespace Gathered

def value (g : Gathered) (registers : RegisterFile) : Word :=
  g.displacement + g.base.elim 0 registers.get +
    g.index.elim 0 fun (r, factor, _) => registers.get r * factor

theorem value_of_add {t : Term} (added : g.add t = .ok g') (registers : RegisterFile) :
    g'.value registers = g.value registers + t.value registers := by
  obtain ⟨displacement, base, index⟩ := g
  cases t with
  | constant value position =>
      cases added
      simp only [Gathered.value, Term.value]
      ac_rfl
  | register r position =>
      cases base with
      | none =>
          cases added
          simp only [Gathered.value, Term.value, Option.elim_none, Option.elim_some, UInt32.add_zero]
          ac_rfl
      | some base =>
          cases index with
          | none =>
              cases added
              simp [Gathered.value, Term.value]
          | some index => cases added
  | scaled r scale scaleAt position =>
      cases index with
      | none =>
          cases added
          simp [Gathered.value, Term.value]
      | some index => cases added

/-- How the registers of some products were placed. -/
structure Places (table : VariableTable) (products : List Product) (g : Gathered) : Prop where
  fits : Fits products
  base : g.base.isSome ↔
    products.countP Product.multiplies < products.countP Product.hasRegister
  index : g.index.isSome ↔
    0 < products.countP Product.multiplies ∨ 2 ≤ products.countP Product.hasRegister
  scaled : ∀ i ∈ g.index, ∀ p ∈ products, p.multiplies → i.2.1 = UInt32.ofNat (p.scale table)
  unscaled : ∀ i ∈ g.index, products.countP Product.multiplies = 0 → i.2.1 = 1

theorem multiplied_le (products : List Product) :
    products.countP Product.multiplies ≤ products.countP Product.hasRegister := by
  apply List.countP_mono_left
  intro p member multiplies
  rw [Product.multiplies, Bool.and_eq_true] at multiplies
  exact multiplies.1

theorem places_nil : Places table [] {} where
  fits := ⟨by decide, by decide⟩
  base := by simp
  index := by simp
  scaled := by simp
  unscaled := by simp

theorem Places.add_constant (places : g.Places table products) (value : Word)
    (position : Position) (free : p.registers = []) :
    Accepts (g.add (.constant value position)) (Fits (p :: products))
      (·.Places table (p :: products)) := by
  have none : p.hasRegister = false := by simp [Product.hasRegister, free]
  have once : p.multiplies = false := by simp [Product.multiplies, none]
  have fits : Fits (p :: products) :=
    ⟨by simpa [none] using places.fits.registers, by simpa [once] using places.fits.multiplied⟩
  refine ⟨fits, fits, by simpa [none, once] using places.base,
    by simpa [none, once] using places.index, ?_, by simpa [once] using places.unscaled⟩
  simpa [once] using places.scaled

theorem Places.add_register (places : g.Places table products) (position : Position) :
    Accepts (g.add (.register r position)) (Fits (.single (.register r) :: products))
      (·.Places table (.single (.register r) :: products)) := by
  have registers : (Product.single (.register r) :: products).countP Product.hasRegister =
      products.countP Product.hasRegister + 1 := by simp [Product.hasRegister]
  have multiplied : (Product.single (.register r) :: products).countP Product.multiplies =
      products.countP Product.multiplies := by simp
  have within := multiplied_le products
  -- The terms are taken from the right: the first bare register is the base, and a second one is
  -- the index if no product has multiplied its register.
  obtain ⟨⟨few, once⟩, base, index, scaled, unscaled⟩ := places
  rw [Gathered.add]
  cases based : g.base with
  | none =>
      simp only [based, Option.isSome_none, Bool.false_eq_true, false_iff] at base
      have fits : Fits (.single (.register r) :: products) := ⟨by omega, by omega⟩
      refine ⟨fits, fits, iff_of_true rfl (by omega), by rw [index]; omega, ?_,
        by rwa [multiplied]⟩
      simpa using scaled
  | some b =>
      simp only [based, Option.isSome_some, true_iff] at base
      cases indexed : g.index with
      | none =>
          simp only [indexed, Option.isSome_none, Bool.false_eq_true, false_iff] at index
          have fits : Fits (.single (.register r) :: products) := ⟨by omega, by omega⟩
          have unmultiplied : products.countP Product.multiplies = 0 := by omega
          refine ⟨fits, fits, iff_of_true rfl (by omega),
            iff_of_true rfl (by omega), ?_, ?_⟩
          · rintro i ⟨⟩ p (_ | ⟨_, member⟩) multiplies
            · simp at multiplies
            · exact absurd multiplies (List.countP_eq_zero.mp unmultiplied p member)
          · rintro i ⟨⟩ -
            rfl
      | some i =>
          simp only [indexed, Option.isSome_some, true_iff] at index
          intro fits
          have := fits.registers
          omega

theorem Places.add_scaled (places : g.Places table products) {scale : Word}
    (scaleAt position : Position) (multiplies : p.multiplies)
    (same : scale = UInt32.ofNat (p.scale table)) :
    Accepts (g.add (.scaled r scale scaleAt position)) (Fits (p :: products))
      (·.Places table (p :: products)) := by
  have used : p.hasRegister := by
    rw [Product.multiplies, Bool.and_eq_true] at multiplies
    exact multiplies.1
  have registers : (p :: products).countP Product.hasRegister =
      products.countP Product.hasRegister + 1 := by simp [used]
  have multiplied : (p :: products).countP Product.multiplies =
      products.countP Product.multiplies + 1 := by simp [multiplies]
  have within := multiplied_le products
  obtain ⟨⟨few, once⟩, base, index, scaled, unscaled⟩ := places
  rw [Gathered.add]
  cases indexed : g.index with
  | none =>
      simp only [indexed, Option.isSome_none, Bool.false_eq_true, false_iff] at index
      have fits : Fits (p :: products) := ⟨by omega, by omega⟩
      have unmultiplied : products.countP Product.multiplies = 0 := by omega
      refine ⟨fits, fits, by rw [base]; omega, iff_of_true rfl (by omega), ?_, ?_⟩
      · rintro i ⟨⟩ q (_ | ⟨_, member⟩) multiplies
        · exact same
        · exact absurd multiplies (List.countP_eq_zero.mp unmultiplied q member)
      · intro i _ none
        omega
  | some i =>
      simp only [indexed, Option.isSome_some, true_iff] at index
      intro fits
      have := fits.registers
      have := fits.multiplied
      omega

theorem Places.add_accepts (places : g.Places table products) {t : Term}
    (denotes : t.Denotes table p) :
    Accepts (g.add t) (Fits (p :: products)) (·.Places table (p :: products)) := by
  cases denotes with
  | constant free same => exact places.add_constant _ _ free
  | register => exact places.add_register _
  | scaled multiplies alone same => exact places.add_scaled _ _ multiplies same

end Gathered

theorem Fits.of_cons (fits : Fits (p :: products)) : Fits products := by
  have ⟨registers, multiplied⟩ := fits
  rw [List.countP_cons] at registers multiplied
  exact ⟨by omega, by omega⟩

theorem gather_accepts {terms : List Term}
    (denote : List.Forall₂ (Term.Denotes table) terms products) :
    Accepts (terms.reverse.foldlM Gathered.add {}) (Fits products) fun g =>
      g.Places table products ∧ ∀ registers,
        g.value registers = UInt32.ofNat (products.map (Product.value table registers)).sum := by
  induction denote with
  | nil => exact ⟨⟨by decide, by decide⟩, Gathered.places_nil, fun registers => rfl⟩
  | @cons t p terms products denotes _ ih =>
      rw [List.foldlM_reverse, List.foldrM_cons, ← List.foldlM_reverse]
      cases gathered : terms.reverse.foldlM Gathered.add {} with
      | error e => exact fun fits => ih.of_error gathered fits.of_cons
      | ok g =>
          obtain ⟨fits, places, value⟩ := ih.of_ok gathered
          have more := places.add_accepts denotes
          change Accepts (g.add t) _ _
          cases added : g.add t with
          | error e => exact more.of_error added
          | ok g' =>
              obtain ⟨fits, places⟩ := more.of_ok added
              refine ⟨fits, places, fun registers => ?_⟩
              rw [Gathered.value_of_add added, value, denotes.value_eq, ← UInt32.ofNat_add,
                List.map_cons, List.sum_cons, Nat.add_comm]

theorem factor_of_ofFactor? {factor : Word} {scale : Scale}
    (found : Scale.ofFactor? factor = some scale) : scale.factor = factor := by
  simp only [Scale.ofFactor?] at found
  split_ifs at found with one two four eight <;> cases found
  · exact one.symm
  · exact two.symm
  · exact four.symm
  · exact eight.symm

theorem isSome_ofFactor?_iff (n : Nat) :
    (Scale.ofFactor? (UInt32.ofNat n)).isSome ↔ n % UInt32.size ∈ [1, 2, 4, 8] := by
  have same (k : Nat) (small : k < UInt32.size) :
      UInt32.ofNat n = UInt32.ofNat k ↔ n % UInt32.size = k := by
    rw [← UInt32.toNat_inj, UInt32.toNat_ofNat', UInt32.toNat_ofNat_of_lt' small]
  simp only [List.mem_cons, List.not_mem_nil, or_false, ← same 1 (by decide),
    ← same 2 (by decide), ← same 4 (by decide), ← same 8 (by decide), Scale.ofFactor?]
  split_ifs <;> simp_all

theorem ofTerms_accepts {terms : List Term} (size : Nat)
    (denote : List.Forall₂ (Term.Denotes table) terms products) :
    Accepts (ofTerms terms size)
      (Fits products ∧
        ∀ p ∈ products, p.multiplies → p.scale table % UInt32.size ∈ [1, 2, 4, 8])
      fun m => m.size = size ∧ ∀ registers, m.address registers =
        UInt32.ofNat (products.map (Product.value table registers)).sum := by
  have gather := gather_accepts denote
  rw [ofTerms]
  cases gathered : terms.reverse.foldlM Gathered.add {} with
  | error e => exact fun addressable => gather.of_error gathered addressable.1
  | ok g =>
      obtain ⟨fits, places, value⟩ := gather.of_ok gathered
      simp only
      cases indexed : g.index with
      | none =>
          have unmultiplied : products.countP Product.multiplies = 0 := by
            have index := places.index
            simp only [indexed, Option.isSome_none, Bool.false_eq_true, false_iff] at index
            omega
          refine ⟨⟨fits, fun p member multiplies => ?_⟩, rfl, fun registers => ?_⟩
          · exact absurd multiplies (List.countP_eq_zero.mp unmultiplied p member)
          · rw [← value, Gathered.value, indexed, MemoryOperand.address]
            cases g.base <;> rfl
      | some i =>
          obtain ⟨r, factor, position⟩ := i
          have scaled := places.scaled _ indexed
          have unscaled := places.unscaled _ indexed
          simp only at scaled unscaled ⊢
          cases found : Scale.ofFactor? factor with
          | none =>
              intro addressable
              -- An index that is not scaled has the factor 1, which is valid.
              rcases Nat.eq_zero_or_pos (products.countP Product.multiplies) with none | some
              · rw [unscaled none] at found
                cases found
              · obtain ⟨p, member, multiplies⟩ := List.countP_pos_iff.mp some
                have valid := (isSome_ofFactor?_iff _).mpr (addressable.2 p member multiplies)
                rw [← scaled p member multiplies, found] at valid
                cases valid
          | some scale =>
              refine ⟨⟨fits, fun p member multiplies => ?_⟩, rfl, fun registers => ?_⟩
              · rw [← isSome_ofFactor?_iff, ← scaled p member multiplies, found]
                rfl
              · rw [← value, Gathered.value, indexed, MemoryOperand.address]
                simp only [factor_of_ofFactor? found]
                cases g.base <;> rfl

end Terms

theorem memoryOperand_accepts {table : VariableTable} {first : Lexeme} {s s' after : TokenStream}
    {size : Nat} {e : Expression} (marked : sizeMark first s = .ok (size, s'))
    (spelled : s'.Begins (e.tokens ++ [.closeBracket]) after) :
    Accepts (memoryOperand table first s) (e.Addressable table) fun found =>
      found.2 = after ∧ found.1.size = size ∧
        ∀ registers, found.1.address registers = UInt32.ofNat (e.value table registers) := by
  have parsed : Accepts (sum table first.position s') _ _ := sum_accepts spelled
  rw [memoryOperand, marked]
  simp only
  cases found : sum table first.position s' with
  | error error => exact fun addressable => parsed.of_error found addressable.sound
  | ok answer =>
      obtain ⟨terms, rest⟩ := answer
      obtain ⟨sound, rfl, denote⟩ := parsed.of_ok found
      have placed := ofTerms_accepts size denote
      simp only
      cases found : ofTerms terms size with
      | error error =>
          exact fun addressable => placed.of_error found ⟨addressable.fits, addressable.scaled⟩
      | ok m =>
          obtain ⟨⟨fits, scaled⟩, means⟩ := placed.of_ok found
          exact ⟨⟨sound, fits, scaled⟩, rfl, means⟩

/-! What is accepted spells an expression -/

section Spelling

variable {table : VariableTable} {start : Position}

theorem spelled_of_factor {t : Lexeme} {term : Term} (read : factor table t = .ok term) :
    ∃ f : Factor, t.token = f.token := by
  rw [factor] at read
  split at read
  · rename_i value token
    exact ⟨.number value, token⟩
  · rename_i r token
    exact ⟨.register r, token⟩
  · rename_i name token
    exact ⟨.named name, token⟩
  · cases read

theorem spelled_of_product {s after : TokenStream} {term : Term}
    (read : product table start s = .ok (term, after)) :
    ∃ p : Product, s.Begins p.tokens after := by
  fun_induction product table start s generalizing term after with
  | case6 t left factored sign rest token | case7 t left factored sign rest token =>
      cases read
      obtain ⟨f, spelled⟩ := spelled_of_factor factored
      exact ⟨.single f, .cons spelled .nil⟩
  | case10 t left factored sign rest token right after read' term' multiplied ih =>
      cases read
      obtain ⟨f, spelled⟩ := spelled_of_factor factored
      obtain ⟨p, follows⟩ := ih read'
      exact ⟨.times f p, .cons spelled (.cons token follows)⟩
  | _ => cases read

theorem spelled_of_sum {s after : TokenStream} {terms : List Term}
    (read : sum table start s = .ok (terms, after)) :
    ∃ e : Expression, s.Begins (e.tokens ++ [.closeBracket]) after := by
  fun_induction sum table start s generalizing terms after with
  | case4 s term sign rest found token =>
      cases read
      obtain ⟨p, spelled⟩ := spelled_of_product found
      exact ⟨.single p, TokenStream.begins_append_iff.mpr ⟨_, spelled, .cons token .nil⟩⟩
  | case6 s term sign rest found token terms' after' read' ih =>
      cases read
      obtain ⟨p, spelled⟩ := spelled_of_product found
      obtain ⟨e, follows⟩ := ih read'
      refine ⟨.plus p e, ?_⟩
      rw [Expression.tokens, List.append_assoc, TokenStream.begins_append_iff]
      exact ⟨_, spelled, .cons token follows⟩
  | _ => cases read

theorem spelled_of_memoryOperand {first : Lexeme} {s s' after : TokenStream} {size : Nat}
    {m : MemoryOperand} (marked : sizeMark first s = .ok (size, s'))
    (read : memoryOperand table first s = .ok (m, after)) :
    ∃ e : Expression, ∃ after, s'.Begins (e.tokens ++ [.closeBracket]) after := by
  rw [memoryOperand, marked] at read
  simp only at read
  split at read
  · cases read
  · rename_i terms rest found
    obtain ⟨e, spelled⟩ := spelled_of_sum found
    exact ⟨e, rest, spelled⟩

end Spelling

/-- A text is accepted exactly when it spells an addressable expression up to its closing bracket,
and then the address is the value of the expression, whatever the registers hold. -/
theorem memoryOperand_iff_addressable (table : VariableTable) (first : Lexeme)
    {s s' : TokenStream} {size : Nat} (marked : sizeMark first s = .ok (size, s')) :
    ((∃ m after, memoryOperand table first s = .ok (m, after)) ↔
      ∃ (e : Expression) (after : TokenStream),
        s'.Begins (e.tokens ++ [.closeBracket]) after ∧ e.Addressable table) ∧
    ∀ m after, memoryOperand table first s = .ok (m, after) →
      ∀ (e : Expression) (rest : TokenStream), s'.Begins (e.tokens ++ [.closeBracket]) rest →
        e.Addressable table ∧ after = rest ∧ m.size = size ∧ ∀ registers,
          (m.address registers).toNat = e.value table registers % UInt32.size := by
  have accepts {e : Expression} {rest : TokenStream}
      (spelled : s'.Begins (e.tokens ++ [.closeBracket]) rest) :
      Accepts (memoryOperand table first s) (e.Addressable table) _ :=
    memoryOperand_accepts marked spelled
  refine ⟨⟨?_, ?_⟩, ?_⟩
  · rintro ⟨m, after, read⟩
    obtain ⟨e, rest, spelled⟩ := spelled_of_memoryOperand marked read
    exact ⟨e, rest, spelled, ((accepts spelled).of_ok read).1⟩
  · rintro ⟨e, after, spelled, addressable⟩
    cases read : memoryOperand table first s with
    | error error => exact absurd addressable ((accepts spelled).of_error read)
    | ok found => exact ⟨found.1, found.2, rfl⟩
  · intro m after read e rest spelled
    obtain ⟨addressable, same, sized, address⟩ := (accepts spelled).of_ok read
    refine ⟨addressable, same, sized, fun registers => ?_⟩
    rw [address, UInt32.toNat_ofNat']

theorem memoryOperand_iff_addressable_scaled :
    let table : VariableTable := { entries := [⟨"x", 4, .number, 1024, none⟩] }
    let tokens : List Token := [.number 2, .multiply, .register .eax, .multiply, .number 4, .add,
      .identifier "x", .add, .register .ebx, .closeBracket]
    let s := tokens.foldr (fun token rest => .token ⟨token, {}⟩ rest) TokenStream.done
    ∃ m after, memoryOperand table ⟨.openBracket, {}⟩ s = .ok (m, after) ∧ ∀ registers,
      (m.address registers).toNat =
        (8 * (registers.get .eax).toNat + 1024 + (registers.get .ebx).toNat) % UInt32.size := by
  intro table tokens s
  let e : Expression := .plus (.times (.number 2) (.times (.register .eax) (.single (.number 4))))
    (.plus (.single (.named "x")) (.single (.single (.register .ebx))))
  have spelled : s.Begins (e.tokens ++ [.closeBracket]) .done := by
    repeat constructor
  have addressable : e.Addressable table := by decide +kernel
  have marked : sizeMark ⟨.openBracket, {}⟩ s = .ok (0, s) := rfl
  obtain ⟨accepted, means⟩ := memoryOperand_iff_addressable table ⟨.openBracket, {}⟩ marked
  obtain ⟨m, after, read⟩ := accepted.mpr ⟨e, .done, spelled, addressable⟩
  obtain ⟨-, -, -, address⟩ := means m after read e .done spelled
  refine ⟨m, after, read, fun registers => ?_⟩
  have value : e.value table registers =
      8 * (registers.get .eax).toNat + 1024 + (registers.get .ebx).toNat := by
    have found : table.find? "x" = some ⟨"x", 4, .number, 1024, none⟩ := by decide +kernel
    simp [e, Expression.value, Expression.products, Product.value, Product.factors, Factor.value,
      Factor.register?, Factor.constant?, found]
    omega
  rw [address, value]

end Assembly

end ReducedX86
