import Mathlib.Logic.Function.Basic
import Mathlib.Logic.Relation
import ReducedX86.Proofs.Assembly.LetterCase

/-!
Layout and letter case make no difference.

A text can be laid out anew: where something separates tokens, anything else can do so; beside
punctuation nothing need do so; and a letter can be written in either case. The tokens are then the
same, but for positions and the spelling of names, and assembling looks at neither.
-/
namespace ReducedX86

/-! Sources -/

/-- What separates two tokens: blanks, line breaks, and comments with the line breaks that end
them. -/
inductive Gap : List Char → Prop
  | separator {c : Char} (separates : Token.isSeparator c) : Gap [c]
  | comment {body : List Char} {stop : Char} (unbroken : ∀ c ∈ body, ¬ Token.isLineBreak c)
      (breaks : Token.isLineBreak stop) : Gap (';' :: body ++ [stop])
  | append {xs ys : List Char} (first : Gap xs) (second : Gap ys) : Gap (xs ++ ys)

/-- A change of the layout, or of the case of a letter, in one place. -/
inductive Relaid : List Char → List Char → Prop
  | separate {before gap gap' after : List Char} (outside : ¬ Cursor.EndsInComment before)
      (old : Gap gap) (new : Gap gap') : Relaid (before ++ gap ++ after) (before ++ gap' ++ after)
  | loosen {before gap after : List Char} (outside : ¬ Cursor.EndsInComment before) (new : Gap gap)
      (beside : (∃ c ∈ before.getLast?, (Token.punctuation? c).isSome) ∨
        ∃ c ∈ after.head?, (Token.punctuation? c).isSome) :
      Relaid (before ++ after) (before ++ gap ++ after)
  | recase {before after : List Char} {c d : Char} (same : Text.Recased c d) :
      Relaid (before ++ c :: after) (before ++ d :: after)

/-! Gaps -/

namespace Cursor

theorem separate_comment {body : List Char} {stop : Char}
    (unbroken : ∀ c ∈ body, ¬ Token.isLineBreak c) (breaks : Token.isLineBreak stop)
    (rest : List Char) :
    (separate true (body ++ stop :: rest)).2 = (separate false rest).2 := by
  induction body with
  | nil => rw [List.nil_append, separate_of_break breaks]
  | cons c body ih =>
      obtain ⟨first, others⟩ := List.forall_mem_cons.mp unbroken
      have still : commented true [c] = true := by simp [commented, first]
      rw [List.cons_append, separate_of_passed (by simp), still]
      exact ih others

/-- A gap is passed over. -/
theorem separate_gap {gap : List Char} (h : Gap gap) (rest : List Char) :
    (separate false (gap ++ rest)).2 = (separate false rest).2 := by
  induction h generalizing rest with
  | @separator c separates =>
      have closed : commented false [c] = false := by
        simp only [Token.isSeparator, Bool.or_eq_true] at separates
        rcases separates with breaks | blank
        · simp [commented, breaks]
        · have plain : (c == ';') = false := beq_eq_false_iff_ne.mpr fun comment => by
            rw [comment] at blank
            cases blank
          simp [commented, plain]
      rw [List.singleton_append, separate_of_passed (by simp [separates]), closed]
  | @comment body stop unbroken breaks =>
      have opens : commented false [';'] = true := by decide
      rw [List.cons_append, List.cons_append, separate_of_passed (by simp), opens,
        List.append_assoc]
      exact separate_comment unbroken breaks rest
  | append first second ih ih' => rw [List.append_assoc, ih, ih']

/-- Characters that end outside comments are passed over, or the reader stops at one of them. -/
theorem separate_append_right (inside : Bool) (before after : List Char) :
    (separate inside (before ++ after)).2 =
      match (separate inside before).2 with
      | [] => (separate (commented inside before) after).2
      | c :: rest => c :: rest ++ after := by
  induction before generalizing inside with
  | nil => rfl
  | cons c rest ih =>
      rw [List.cons_append, separate, separate]
      split
      · exact ih _
      · rfl

end Cursor

theorem Gap.stopsWord {gap : List Char} (h : Gap gap) (rest : List Char) :
    Assembly.StopsWord (gap ++ rest) := by
  induction h generalizing rest with
  | separator separates =>
      rintro c ⟨⟩
      exact Token.endsWord_of_isSeparator separates
  | comment unbroken breaks =>
      rintro c ⟨⟩
      decide
  | append first second ih ih' =>
      rw [List.append_assoc]
      exact ih _

/-! Tokens -/

theorem Assembly.StopsWord.span {after : List Char} (stops : StopsWord after) (cs : List Char) :
    (cs ++ after).takeWhile Token.isWordChar = cs.takeWhile Token.isWordChar ∧
      (cs ++ after).dropWhile Token.isWordChar = cs.dropWhile Token.isWordChar ++ after := by
  induction cs with
  | nil =>
      cases after with
      | nil => exact ⟨rfl, rfl⟩
      | cons c after =>
          have ends := Token.not_isWordChar_of_endsWord (stops c rfl)
          simp [ends]
  | cons c cs ih => cases word : Token.isWordChar c <;> simp [word, ih]

/-- A token is found without looking beyond what ends it. -/
theorem Token.scan_append {cs after : List Char} (nonempty : cs ≠ [])
    (stops : Assembly.StopsWord after) :
    scan (cs ++ after) =
      match scan cs with
      | .ok (some (t, rest)) => .ok (some (t, rest ++ after))
      | answer => answer := by
  cases cs with
  | nil => exact absurd rfl nonempty
  | cons c cs =>
      obtain ⟨word, left⟩ := stops.span cs
      have clean : (cs.dropWhile isWordChar ++ after).head?.filter (!endsWord ·) =
          (cs.dropWhile isWordChar).head?.filter (!endsWord ·) := by
        cases cs.dropWhile isWordChar with
        | cons d rest => rfl
        | nil =>
            cases after with
            | nil => rfl
            | cons d after => simp [stops d rfl]
      simp only [List.cons_append, scan, word, left, clean]
      cases punctuation? c with
      | some t => rfl
      | none =>
          simp only
          split
          · split
            · rfl
            · cases ofWord (c :: cs.takeWhile isWordChar) <;> rfl
          · rfl

/-! Texts without positions -/

namespace Respelling

/-- Positions are forgotten, and one name is taken for all with the same key. -/
noncomputable def blind : Respelling where
  place _ := {}
  name name := Function.invFun VariableTable.key (VariableTable.key name)

theorem key_blind (name : String) : VariableTable.key (blind.name name) = VariableTable.key name :=
  Function.invFun_eq ⟨name, rfl⟩

theorem blind_keeps (table : VariableTable) : blind.Keeps table table where
  finds name := by rw [VariableTable.find?, VariableTable.find?, key_blind]
  key := key_blind

theorem blind_name {name name' : String}
    (same : VariableTable.key name = VariableTable.key name') :
    blind.name name = blind.name name' := congrArg (Function.invFun VariableTable.key) same

end Respelling

/-- The tokens of a text, without positions. -/
noncomputable def TokenStream.spelled (cs : List Char) : TokenStream :=
  Respelling.blind.stream (.ofCursor ⟨cs, {}⟩)

namespace TokenStream

/-- Where a text starts does not matter. -/
theorem stream_ofCursor (cs : List Char) (p : Position) :
    Respelling.blind.stream (ofCursor ⟨cs, p⟩) =
      match Token.scan (Cursor.separate false cs).2 with
      | .ok none => .done
      | .ok (some (t, rest)) => .token (Respelling.blind.lexeme ⟨t, p⟩) (spelled rest)
      | .error kind => .broken (Respelling.blind.error (kind.at p)) := by
  induction length : cs.length using Nat.strongRecOn generalizing cs p with
  | ind n ih =>
      rcases separated : Cursor.separate false cs with ⟨gap, left⟩
      have read := @Cursor.next_eq_scan ⟨cs, p⟩ gap left separated
      simp only at read ⊢
      generalize Token.scan left = answer at read ⊢
      rcases answer with kind | _ | ⟨t, rest⟩
      · obtain ⟨q, after, failed⟩ := read
        rw [ofCursor_of_error failed]
        rfl
      · obtain ⟨after, ended⟩ := read
        rw [ofCursor_of_end ended]
        rfl
      · have shorter := Cursor.length_rest_lt_of_next read
        have anywhere (q : Position) : Respelling.blind.stream (ofCursor ⟨rest, q⟩) = spelled rest :=
          (ih _ (length ▸ shorter) rest q rfl).trans (ih _ (length ▸ shorter) rest {} rfl).symm
        rw [ofCursor_of_next read, Respelling.stream_token, anywhere]
        rfl

theorem spelled_eq (cs : List Char) :
    spelled cs =
      match Token.scan (Cursor.separate false cs).2 with
      | .ok none => .done
      | .ok (some (t, rest)) => .token (Respelling.blind.lexeme ⟨t, {}⟩) (spelled rest)
      | .error kind => .broken (Respelling.blind.error (kind.at {})) := stream_ofCursor cs {}

theorem spelled_gap {gap : List Char} (h : Gap gap) (rest : List Char) :
    spelled (gap ++ rest) = spelled rest := by
  rw [spelled_eq, Cursor.separate_gap h, ← spelled_eq]

theorem spelled_punctuation {c : Char} {t : Token} (mark : Token.punctuation? c = some t)
    (rest : List Char) :
    spelled (c :: rest) = .token (Respelling.blind.lexeme ⟨t, {}⟩) (spelled rest) := by
  have left : Cursor.separate false (c :: rest) = ([], c :: rest) :=
    Cursor.separate_of_isSolid (Token.isSolid_of_punctuation mark) rest
  rw [spelled_eq, left]
  simp only [Token.scan, mark]

/-- Characters outside comments are read alike before texts that read alike and end words. -/
theorem spelled_append {xs ys : List Char} (stops : Assembly.StopsWord xs)
    (stops' : Assembly.StopsWord ys) (same : spelled xs = spelled ys) {before : List Char}
    (outside : Cursor.commented false before = false) :
    spelled (before ++ xs) = spelled (before ++ ys) := by
  induction length : before.length using Nat.strongRecOn generalizing before with
  | ind n ih =>
      rw [spelled_eq (before ++ xs), spelled_eq (before ++ ys), Cursor.separate_append_right,
        Cursor.separate_append_right, outside]
      cases left : (Cursor.separate false before).2 with
      | nil => exact (spelled_eq xs).symm.trans (same.trans (spelled_eq ys))
      | cons c cs =>
          simp only
          rw [Token.scan_append (List.cons_ne_nil c cs) stops,
            Token.scan_append (List.cons_ne_nil c cs) stops']
          rcases found : Token.scan (c :: cs) with kind | _ | ⟨t, rest⟩
          · rfl
          · rfl
          · obtain ⟨text, split, stands⟩ := Token.stands_of_scan found
            have whole := Cursor.separate_append false before
            rw [left, split] at whole
            have closed := (Cursor.solid_of_left left).2
            have stands := stands [] (by rintro b ⟨⟩)
            have outside' : Cursor.commented false rest = false := by
              rwa [← whole, Cursor.commented_append, closed, Cursor.commented_append,
                Cursor.commented_of_isSolid stands.solid] at outside
            have shorter : rest.length < before.length := by
              have nonempty := List.length_pos_of_ne_nil stands.nonempty
              rw [← whole, List.length_append, List.length_append]
              omega
            exact congrArg (TokenStream.token _) (ih _ (length ▸ shorter) outside' rfl)

theorem spelled_recased {cs ds : List Char} (same : List.Forall₂ Text.Recased cs ds) :
    spelled cs = spelled ds := by
  induction length : cs.length using Nat.strongRecOn generalizing cs ds with
  | ind n ih =>
      have left := Cursor.separate_recased same false
      rw [spelled_eq cs, spelled_eq ds]
      rcases Token.scan_recased (fun _ _ => Respelling.blind_name) left with
        ⟨found, found'⟩ | ⟨kind, found, found'⟩ | ⟨t, u, rest, rest', found, found', token, later⟩
      · rw [found, found']
      · rw [found, found']
      · have shorter : rest.length < cs.length := by
          obtain ⟨text, split, stands⟩ := Token.stands_of_scan found
          have nonempty := (stands [] (by rintro b ⟨⟩)).nonempty
          have whole := congrArg List.length (Cursor.separate_append false cs)
          rw [split, List.length_append, List.length_append] at whole
          have positive := List.length_pos_of_ne_nil nonempty
          omega
        have same_rest := ih _ (length ▸ shorter) later rfl
        have lexeme : Respelling.blind.lexeme ⟨t, {}⟩ = Respelling.blind.lexeme ⟨u, {}⟩ :=
          congrArg (Lexeme.mk · {}) token
        simp only [found, found', lexeme, same_rest]

/-- Beside punctuation a gap makes no difference. -/
theorem spelled_loosened {before gap after : List Char}
    (outside : Cursor.commented false before = false) (new : Gap gap)
    (beside : (∃ c ∈ before.getLast?, (Token.punctuation? c).isSome) ∨
      ∃ c ∈ after.head?, (Token.punctuation? c).isSome) :
    spelled (before ++ after) = spelled (before ++ (gap ++ after)) := by
  rcases beside with ⟨c, last, mark⟩ | ⟨c, first, mark⟩
  · obtain ⟨t, mark⟩ := Option.isSome_iff_exists.mp mark
    obtain ⟨earlier, rfl⟩ := List.getLast?_eq_some_iff.mp last
    have outside' : Cursor.commented false earlier = false := by
      have unbroken := Token.not_isLineBreak_of_isSolid (Token.isSolid_of_punctuation mark)
      rw [Cursor.commented_append, Cursor.commented_cons, unbroken] at outside
      exact (Bool.or_eq_false_iff.mp outside).1
    have same : spelled (c :: after) = spelled (c :: (gap ++ after)) := by
      rw [spelled_punctuation mark, spelled_punctuation mark, spelled_gap new]
    rw [List.append_assoc, List.append_assoc]
    exact spelled_append (.punctuation mark) (.punctuation mark) same outside'
  · have stops : Assembly.StopsWord after := by
      intro d here
      cases first.symm.trans here
      simp [Token.endsWord, mark]
    exact spelled_append stops (new.stopsWord after) (spelled_gap new after).symm outside

/-- A text that is laid out anew has the same tokens. -/
theorem spelled_relaid {cs ds : List Char} (relaid : Relaid cs ds) : spelled cs = spelled ds := by
  have uncommented {before : List Char} (outside : ¬ Cursor.EndsInComment before) :
      Cursor.commented false before = false :=
    Bool.eq_false_iff.mpr fun inside => outside ((Cursor.commented_iff before).mp inside)
  cases relaid with
  | @separate before gap gap' after outside old new =>
      rw [List.append_assoc, List.append_assoc]
      exact spelled_append (old.stopsWord after) (new.stopsWord after)
        ((spelled_gap old after).trans (spelled_gap new after).symm) (uncommented outside)
  | @loosen before gap after outside new beside =>
      rw [List.append_assoc]
      exact spelled_loosened (uncommented outside) new beside
  | @recase before after c d same =>
      have unchanged (es : List Char) : List.Forall₂ Text.Recased es es :=
        List.forall₂_same.mpr fun _ _ => rfl
      exact spelled_recased (List.rel_append (unchanged before) (.cons same (unchanged after)))

theorem spelled_eqvGen {cs ds : List Char} (relaid : Relation.EqvGen Relaid cs ds) :
    spelled cs = spelled ds := by
  induction relaid with
  | rel _ _ relaid => exact spelled_relaid relaid
  | refl => rfl
  | symm _ _ _ ih => exact ih.symm
  | trans _ _ _ _ _ ih ih' => exact ih.trans ih'

end TokenStream

/-! Programs -/

theorem Entries.map_put {κ α β : Type} [DecidableEq κ] (f : α → β) (entries : List (κ × α)) (k : κ)
    (v : α) :
    (put entries k v).map (Prod.map id f) = put (entries.map (Prod.map id f)) k (f v) := by
  induction entries with
  | nil => rfl
  | cons e rest ih =>
      obtain ⟨k', v'⟩ := e
      simp only [put, List.map_cons, Prod.map_apply, id]
      split
      · rfl
      · exact congrArg ((k', f v') :: ·) ih

/-- The kind of an error, with the key in the place of a name. -/
def AssemblyErrorKind.keyed : AssemblyErrorKind → AssemblyErrorKind
  | duplicateLabel name => duplicateLabel (VariableTable.key name)
  | unknownLabel name => unknownLabel (VariableTable.key name)
  | kind => kind

theorem keyed_blind (kind : AssemblyErrorKind) :
    (Respelling.blind.kind kind).keyed = kind.keyed := by
  cases kind with
  | duplicateLabel name =>
      exact congrArg AssemblyErrorKind.duplicateLabel (Respelling.key_blind name)
  | unknownLabel name => exact congrArg AssemblyErrorKind.unknownLabel (Respelling.key_blind name)
  | _ => rfl

namespace Program

/-- The programs differ at most in their positions and lines, and in the spelling of labels. -/
structure Alike (p q : Program) : Prop where
  instructions : p.instructions.map (fun i => (i.op, i.op1, i.op2)) =
    q.instructions.map fun i => (i.op, i.op1, i.op2)
  labels : p.artifacts.labels.map (Prod.map VariableTable.key id) =
    q.artifacts.labels.map (Prod.map VariableTable.key id)
  addressToLabel : p.artifacts.addressToLabel.map (Prod.map id VariableTable.key) =
    q.artifacts.addressToLabel.map (Prod.map id VariableTable.key)
  layout : p.artifacts.layout = q.artifacts.layout

theorem addressToLabel_keyed (labels : List (String × Word)) (m : List (Word × String)) :
    (labels.foldl (fun m (name, address) => Entries.put m address name) m).map
        (Prod.map id VariableTable.key) =
      (labels.map (Prod.map VariableTable.key id)).foldl
        (fun m (k, address) => Entries.put m address k) (m.map (Prod.map id VariableTable.key)) := by
  induction labels generalizing m with
  | nil => rfl
  | cons l rest ih =>
      obtain ⟨name, address⟩ := l
      simp only [List.foldl_cons, List.map_cons, ih, Entries.map_put, Prod.map_apply, id]

/-- What respells to the same labels and instructions makes programs that are alike. -/
theorem alike_of_blind {setting : Assembly.Setting} {labels labels' : List (String × Word)}
    {is is' : Array Instruction}
    (names : labels.map Respelling.blind.label = labels'.map Respelling.blind.label)
    (code : is.map Respelling.blind.instruction = is'.map Respelling.blind.instruction) :
    Alike ⟨is, Assembly.artifacts setting labels is⟩ ⟨is', Assembly.artifacts setting labels' is'⟩ := by
  have keyed : labels.map (Prod.map VariableTable.key id) =
      labels'.map (Prod.map VariableTable.key id) := by
    have keys (l : String × Word) :
        Prod.map VariableTable.key id (Respelling.blind.label l) = Prod.map VariableTable.key id l :=
      Prod.ext (Respelling.key_blind l.1) rfl
    have same := congrArg (List.map (Prod.map VariableTable.key id)) names
    simpa only [List.map_map, Function.comp_def, keys] using same
  refine ⟨?_, keyed, ?_, rfl⟩
  · have same := congrArg (Array.map fun i : Instruction => (i.op, i.op1, i.op2)) code
    rwa [Array.map_map, Array.map_map] at same
  · simp only [Assembly.artifacts, addressToLabel_keyed, keyed]

/-- Sources of which one is the other laid out anew are assembled to programs that are alike, or are
refused for the same reason. -/
theorem assemble_relaid {source other : String}
    (relaid : Relation.EqvGen Relaid source.toList other.toList) (table : VariableTable)
    (limit : Word) :
    match assemble source table limit, assemble other table limit with
    | .ok p, .ok q => p.Alike q
    | .error e, .error e' => e.kind.keyed = e'.kind.keyed
    | _, _ => False := by
  have read (source : String) :=
    Assembly.assembled_respelled (Respelling.blind_keeps table) limit (.ofSource source)
  have same := (read source).symm.trans
    ((congrArg (Assembly.assembled ⟨table, limit⟩) (TokenStream.spelled_eqvGen relaid)).trans
      (read other))
  rw [assemble, assemble, Assembly.ofTokens_eq, Assembly.ofTokens_eq]
  generalize Assembly.assembled ⟨table, limit⟩ (.ofSource source) = answer at same ⊢
  generalize Assembly.assembled ⟨table, limit⟩ (.ofSource other) = answer' at same ⊢
  rcases answer with e | ⟨labels, is⟩ <;> rcases answer' with e' | ⟨labels', is'⟩
  · have kind : Respelling.blind.kind e.kind = Respelling.blind.kind e'.kind :=
      congrArg AssemblyError.kind (Except.error.inj same)
    have keyed := congrArg AssemblyErrorKind.keyed kind
    rwa [keyed_blind, keyed_blind] at keyed
  · cases same
  · cases same
  · obtain ⟨names, code⟩ := Prod.mk.inj (Except.ok.inj same)
    exact alike_of_blind names code

theorem assemble_relaid_return :
    Relation.EqvGen Relaid "a:ret 4".toList "a: ;x\nreT\n4".toList ∧
    ∃ p q, assemble "a:ret 4" {} 1024 = .ok p ∧ assemble "a: ;x\nreT\n4" {} 1024 = .ok q ∧
      p.Alike q ∧ p ≠ q := by
  have outside : ¬ Cursor.EndsInComment ['a', ':'] := fun inside =>
    absurd ((Cursor.commented_iff _).mpr inside) (by decide)
  have outside' : ¬ Cursor.EndsInComment ['a', ':', 'r', 'e', 't'] := fun inside =>
    absurd ((Cursor.commented_iff _).mpr inside) (by decide)
  have note : Gap [' ', ';', 'x', '\n'] := .append (.separator (by decide))
    (@Gap.comment ['x'] '\n' (List.forall_mem_singleton.mpr (by decide)) (by decide))
  have first : Relaid "a:ret 4".toList "a:ret\n4".toList :=
    .separate outside' (.separator (by decide)) (@Gap.separator '\n' (by decide))
  have second : Relaid "a:ret\n4".toList "a: ;x\nret\n4".toList :=
    .loosen outside note (.inl ⟨':', rfl, rfl⟩)
  have third : Relaid "a: ;x\nret\n4".toList "a: ;x\nreT\n4".toList :=
    @Relaid.recase ['a', ':', ' ', ';', 'x', '\n', 'r', 'e'] ['\n', '4'] 't' 'T' rfl
  have relaid := (Relation.EqvGen.rel _ _ first).trans _ _ _
    ((Relation.EqvGen.rel _ _ second).trans _ _ _ (.rel _ _ third))
  have alike := assemble_relaid relaid {} 1024
  have compiled : (assemble "a:ret 4" {} 1024).isOk = true := by decide +kernel
  have different : assemble "a:ret 4" {} 1024 ≠ assemble "a: ;x\nreT\n4" {} 1024 := by decide +kernel
  refine ⟨relaid, ?_⟩
  generalize assemble "a:ret 4" {} 1024 = answer at *
  generalize assemble "a: ;x\nreT\n4" {} 1024 = answer' at *
  rcases answer with e | p
  · cases compiled
  · rcases answer' with e' | q
    · cases alike
    · exact ⟨p, q, rfl, rfl, alike, fun same => different (congrArg Except.ok same)⟩

end Program

end ReducedX86
