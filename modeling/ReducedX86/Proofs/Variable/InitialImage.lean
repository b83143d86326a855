import ReducedX86.Proofs.Machine.Reset
import ReducedX86.Proofs.Memory
import ReducedX86.Proofs.Text.Utf16
import ReducedX86.Proofs.Variable.DeclarationOrder
import ReducedX86.Proofs.Word

/-!
What memory holds after a reset.

Each variable has its declared contents, and every other byte is zero. A variable is as long as its
contents, or longer, so none is written into its neighbour; the order in which they are written makes
no difference, and neither does what was in memory before. A size is a word, so that contents of
2 ^ 32 bytes or more would be longer than their variable: there are to be none.
-/
namespace ReducedX86

/-! Contents, byte by byte -/

/-- The bytes of contents, a zero unit at the end of text included. -/
inductive Contents.Laid : Contents → List UInt8 → Prop
  | number (value : Word) : Laid (.number value) value.bytes
  | bytes (data : List UInt8) : Laid (.bytes data) data
  | text {s : String} {data : List UInt8} (spelled : Text.Spells data s.toList) :
      Laid (.text s) (data ++ [0, 0])

/-- The contents themselves say how long their variable is. -/
def Contents.Sized : Contents → Prop
  | .number _ => False
  | .bytes data => data ≠ []
  | .text _ => True

theorem Contents.Laid.unique {c : Contents} {data data' : List UInt8} (laid : c.Laid data)
    (laid' : c.Laid data') : data = data' := by
  cases laid with
  | number | bytes => cases laid'; rfl
  | text spelled =>
      cases laid' with
      | text spelled' => rw [spelled.unique spelled']

namespace Variable

/-- The bytes that a variable is to have. Behind them it is zero. -/
inductive Declares (v : Variable) : List UInt8 → Prop
  | blank (initial : v.initial = none) : Declares v []
  | laid {c : Contents} {data : List UInt8} (initial : v.initial = some c) (laid : c.Laid data) :
      Declares v data

theorem Declares.unique {v : Variable} {data data' : List UInt8} (declares : v.Declares data)
    (declares' : v.Declares data') : data = data' := by
  cases declares with
  | blank initial =>
      cases declares' with
      | blank => rfl
      | laid initial' => cases initial.symm.trans initial'
  | laid initial laid =>
      cases declares' with
      | blank initial' => cases initial.symm.trans initial'
      | laid initial' laid' =>
          cases initial.symm.trans initial'
          exact laid.unique laid'

/-- The contents of a variable are not too long for its size to be a word. -/
def Short (v : Variable) : Prop := ∀ data, v.Declares data → data.length < 2 ^ 32

/-- Text and bytes take the room they need. -/
def Measured (v : Variable) : Prop :=
  ∀ c data, v.initial = some c → c.Sized → c.Laid data → v.size = data.length

/-- A variable as it was declared, wherever it is. -/
def Declared (v : Variable) : Prop := ∃ d : Declaration, v = { d.toVariable with address := v.address }

/-- The initial contents as they are laid out; none are no bytes. -/
def image (v : Variable) : List UInt8 := v.image?.getD []

variable {v : Variable}

theorem length_unitBytes (units : List UInt16) :
    (units.flatMap unitBytes).length = 2 * units.length := by
  induction units with
  | nil => rfl
  | cons u rest ih => rw [List.flatMap_cons, List.length_append, ih, List.length_cons, unitBytes,
      List.length_cons, List.length_singleton, Nat.mul_succ, Nat.add_comm]

/-- Text is laid out in its units and a zero unit. -/
theorem laid_text (s : String) :
    (Contents.text s).Laid ((Text.units s ++ [0]).flatMap unitBytes) := by
  rw [List.flatMap_append]
  exact .text (Text.spells_units s.toList)

theorem Declared.measured (declared : v.Declared) (short : v.Short) : v.Measured := by
  obtain ⟨d, same⟩ := declared
  have size : v.size = d.actualSize := by rw [same]; rfl
  intro c data initial sized laid
  have bound := short data (.laid initial laid)
  have known : d.initial = some c := by rw [← initial, same]; rfl
  rw [size, Declaration.actualSize, known]
  cases laid with
  | number => exact sized.elim
  | bytes =>
      cases data with
      | nil => exact absurd rfl sized
      | cons b rest => exact Nat.mod_eq_of_lt bound
  | @text s data spelled =>
      rw [spelled.unique (Text.spells_units s.toList), List.length_append, ← Text.units,
        length_unitBytes] at bound ⊢
      simp only [List.length_cons, List.length_nil] at bound ⊢
      rw [UInt32.toNat_mul, UInt32.toNat_add, UInt32.toNat_ofNat']
      simp only [UInt32.reduceToNat]
      omega

theorem short_of_image (image : v.image.length < 2 ^ 32) : v.Short := by
  rintro data (initial | @⟨c, _, initial, laid⟩)
  · exact Nat.two_pow_pos 32
  · rw [Variable.image, image?, initial] at image
    cases laid with
    | number value => exact Nat.lt_of_lt_of_le (by decide : 4 < 5) (by decide)
    | bytes =>
        cases data with
        | nil => exact Nat.two_pow_pos 32
        | cons b rest => exact image
    | @text s data spelled =>
        rw [(Contents.Laid.text spelled).unique (laid_text s)]
        exact image

/-- The image of a variable is no longer than the variable, and has every byte that it is to have. -/
theorem Measured.image (measured : v.Measured) :
    v.image.length ≤ v.size ∧
      ∃ data, v.Declares data ∧ ∀ i < v.size, v.image.getD i 0 = data.getD i 0 := by
  rw [Variable.image, image?]
  cases initial : v.initial with
  | none => exact ⟨Nat.zero_le _, [], .blank initial, fun _ _ => rfl⟩
  | some c =>
      cases c with
      | number value =>
          refine ⟨List.length_take_le .., value.bytes, .laid initial (.number value), ?_⟩
          intro i inside
          change (value.bytes.take v.size).getD i 0 = _
          rw [List.getD_eq_getElem?_getD, List.getElem?_take_of_lt inside, List.getD_eq_getElem?_getD]
      | bytes data =>
          refine ⟨?_, data, .laid initial (.bytes data), fun _ _ => ?_⟩
          · cases data with
            | nil => exact Nat.zero_le _
            | cons b rest =>
                have size := measured _ _ initial (List.cons_ne_nil b rest) (.bytes _)
                exact Nat.le_of_eq size.symm
          · cases data <;> rfl
      | text s =>
          have laid := laid_text s
          have size := measured _ _ initial trivial laid
          exact ⟨Nat.le_of_eq size.symm, _, .laid initial laid, fun _ _ => rfl⟩

end Variable

namespace VariableTable

/-! The variables of a table -/

variable {t : VariableTable}

theorem declared_edited (declared : ∀ v ∈ t.entries, v.Declared) (e : Edit) :
    ∀ v ∈ (t.edited e).entries, v.Declared := by
  cases e with
  | add d memorySize =>
      rw [edited]
      split
      · rename_i added
        rw [(entries_add added).2.2]
        intro v member
        rcases List.mem_append.mp member with before | new
        · exact declared v before
        · rw [List.mem_singleton.mp new]
          exact ⟨d, rfl⟩
      · exact declared
  | remove name =>
      rw [edited, remove]
      split
      · exact declared
      · exact fun v member => declared v (List.mem_filter.mp member).1
  | allocate memorySize =>
      rw [edited]
      split
      · rename_i fits
        rw [(allocate_eq fits).2]
        refine List.forall_mem_map.mpr fun v member => ?_
        obtain ⟨d, same⟩ := declared v member
        exact ⟨d, by rw [moved, same]⟩
      · exact declared

theorem declared_build (edits : List Edit) : ∀ v ∈ (build edits).entries, v.Declared := by
  have kept (edits : List Edit) (t : VariableTable) (declared : ∀ v ∈ t.entries, v.Declared) :
      ∀ v ∈ (edits.foldl edited t).entries, v.Declared := by
    induction edits generalizing t with
    | nil => exact declared
    | cons e rest ih => exact ih (t.edited e) (declared_edited declared e)
  exact kept edits {} fun v member => absurd member List.not_mem_nil

/-! Writing them to memory -/

section Fill

variable {m : Memory} {v : Variable}

theorem bytes_fillOne (measured : v.Measured) (inside : m.inRange v.address v.size) :
    (fillOne m v).bytes = Bytes.storeList m.bytes (v.address.toNat - Memory.base) v.image := by
  have short := measured.image.1
  rw [fillOne]
  rw [Variable.image] at short ⊢
  cases known : v.image? with
  | none => rfl
  | some data =>
      rw [known, Option.getD_some] at short
      have fits : m.inRange v.address data.length := by
        rw [Memory.inRange_iff] at inside ⊢
        omega
      simp only [Memory.fill?, if_pos fits, Option.getD_some]

theorem byteAt_fillOne (measured : v.Measured) (inside : m.inRange v.address v.size) {place : ℕ}
    (lower : Memory.base ≤ place) :
    (fillOne m v).byteAt place =
      if place < v.address.toNat + v.image.length ∧ v.address.toNat ≤ place then
        v.image.getD (place - v.address.toNat) 0
      else m.byteAt place := by
  have short := measured.image.1
  obtain ⟨above, below⟩ := Memory.inRange_iff.mp inside
  rw [Memory.size] at below
  rw [Memory.byteAt, bytes_fillOne measured inside, Bytes.byteAt_storeList]
  have offset : place - Memory.base - (v.address.toNat - Memory.base) = place - v.address.toNat := by
    omega
  rw [offset]
  exact if_congr (by omega) rfl rfl

/-- A variable is written nowhere but in its place. -/
theorem byteAt_fillOne_of_not_mem (measured : v.Measured) (inside : m.inRange v.address v.size)
    {place : ℕ} (lower : Memory.base ≤ place) (outside : place ∉ range v) :
    (fillOne m v).byteAt place = m.byteAt place := by
  have short := measured.image.1
  rw [range, Set.mem_Ico] at outside
  rw [byteAt_fillOne measured inside lower, if_neg (by omega)]

/-- Where there was zero, a variable has its contents once it is written. -/
theorem byteAt_fillOne_of_mem (measured : v.Measured) (inside : m.inRange v.address v.size)
    {data : List UInt8} (declares : v.Declares data) {i : ℕ} (within : i < v.size)
    (blank : m.byteAt (v.address.toNat + i) = 0) :
    (fillOne m v).byteAt (v.address.toNat + i) = data.getD i 0 := by
  have above := (Memory.inRange_iff.mp inside).1
  obtain ⟨-, data', declares', image⟩ := measured.image
  rw [byteAt_fillOne measured inside (by omega), declares.unique declares', ← image i within,
    Nat.add_sub_cancel_left]
  split
  · rfl
  · rename_i beyond
    rw [blank, List.getD_eq_getElem?_getD, List.getElem?_eq_none (by omega), Option.getD_none]

end Fill

/-- Variables that can be written one after the other: each in its own part of memory. -/
structure Placed (vs : List Variable) (m : Memory) : Prop where
  measured : ∀ v ∈ vs, v.Measured
  inside : ∀ v ∈ vs, m.inRange v.address v.size
  apart : vs.Pairwise fun v w => Disjoint (range v) (range w)

section Written

variable {m : Memory} {v : Variable} {vs : List Variable}

theorem inRange_fillOne (address : Word) (size : Nat) :
    (fillOne m v).inRange address size = m.inRange address size := by
  rw [Memory.inRange, Memory.inRange, size_fillOne]

theorem Placed.tail (placed : Placed (v :: vs) m) : Placed vs (fillOne m v) where
  measured w member := placed.measured w (List.mem_cons_of_mem v member)
  inside w member := by
    rw [inRange_fillOne]
    exact placed.inside w (List.mem_cons_of_mem v member)
  apart := placed.apart.of_cons

theorem byteAt_foldl_of_not_mem (placed : Placed vs m) {place : ℕ} (lower : Memory.base ≤ place)
    (outside : ∀ v ∈ vs, place ∉ range v) : (vs.foldl fillOne m).byteAt place = m.byteAt place := by
  induction vs generalizing m with
  | nil => rfl
  | cons v rest ih =>
      obtain ⟨first, later⟩ := List.forall_mem_cons.mp outside
      rw [List.foldl_cons, ih placed.tail later]
      exact byteAt_fillOne_of_not_mem (placed.measured v List.mem_cons_self)
        (placed.inside v List.mem_cons_self) lower first

theorem byteAt_foldl_of_mem (placed : Placed vs m) (member : v ∈ vs) {data : List UInt8}
    (declares : v.Declares data) {i : ℕ} (within : i < v.size)
    (blank : m.byteAt (v.address.toNat + i) = 0) :
    (vs.foldl fillOne m).byteAt (v.address.toNat + i) = data.getD i 0 := by
  have lower : Memory.base ≤ v.address.toNat + i :=
    Nat.le_add_right_of_le (Memory.inRange_iff.mp (placed.inside v member)).1
  have own : v.address.toNat + i ∈ range v := Set.mem_Ico.mpr (by omega)
  induction vs generalizing m with
  | nil => exact absurd member List.not_mem_nil
  | cons w rest ih =>
      have measured := placed.measured w List.mem_cons_self
      have inside := placed.inside w List.mem_cons_self
      have apart := (List.pairwise_cons.mp placed.apart).1
      rcases List.mem_cons.mp member with rfl | later
      · rw [List.foldl_cons, byteAt_foldl_of_not_mem placed.tail lower fun u other =>
          Set.disjoint_left.mp (apart u other) own]
        exact byteAt_fillOne_of_mem measured inside declares within blank
      · refine ih placed.tail later ?_
        have outside := Set.disjoint_right.mp (apart v later) own
        rw [byteAt_fillOne_of_not_mem measured inside lower outside, blank]

end Written

/-- Memory holds the contents of the variables and nothing else. -/
structure Shows (t : VariableTable) (m : Memory) : Prop where
  inside : ∀ v ∈ t.entries, m.inRange v.address v.size
  contents : ∀ v ∈ t.entries, ∃ data, v.Declares data ∧
    ∀ i < v.size, m.byteAt (v.address.toNat + i) = data.getD i 0
  zero : ∀ place, Memory.base ≤ place → (∀ v ∈ t.entries, place ∉ range v) → m.byteAt place = 0

/-- What the variables say determines the memory. -/
theorem Shows.eq {u : VariableTable} {m m' : Memory} (shows : t.Shows m) (shows' : u.Shows m')
    (same : ∀ v, v ∈ u.entries ↔ v ∈ t.entries) (size : m.size = m'.size) : m = m' := by
  have bytes (place : ℕ) (lower : Memory.base ≤ place) : m.byteAt place = m'.byteAt place := by
    by_cases covered : ∃ v ∈ t.entries, place ∈ range v
    · obtain ⟨v, member, above, below⟩ := covered
      have here : place = v.address.toNat + (place - v.address.toNat) := by omega
      obtain ⟨data, declares, laid⟩ := shows.contents v member
      obtain ⟨data', declares', laid'⟩ := shows'.contents v ((same v).mpr member)
      rw [here, laid _ (by omega), laid' _ (by omega), declares.unique declares']
    · have outside (v : Variable) (member : v ∈ t.entries) : place ∉ range v :=
        fun inside => covered ⟨v, member, inside⟩
      rw [shows.zero place lower outside,
        shows'.zero place lower fun v member => outside v ((same v).mp member)]
  refine congrArg Memory.mk (Bytes.ext size fun i => ?_)
  have found := bytes (Memory.base + i) (Nat.le_add_right _ _)
  simpa only [Memory.byteAt, Nat.add_sub_cancel_left] using found

theorem shows_fill {m : Memory} (placed : Placed t.entries m) : t.Shows (t.fill m.clear) := by
  have size : (t.fill m.clear).size = m.size := (t.size_fill _).trans m.size_clear
  have cleared : Placed t.entries m.clear := by
    refine ⟨placed.measured, fun v member => ?_, placed.apart⟩
    rw [Memory.inRange, m.size_clear]
    exact placed.inside v member
  refine ⟨fun v member => ?_, fun v member => ?_, fun place lower outside => ?_⟩
  · rw [Memory.inRange, size]
    exact placed.inside v member
  · obtain ⟨-, data, declares, -⟩ := (placed.measured v member).image
    exact ⟨data, declares, fun i within =>
      byteAt_foldl_of_mem cleared member declares within (m.byteAt_clear _)⟩
  · exact (byteAt_foldl_of_not_mem cleared lower outside).trans (m.byteAt_clear place)

theorem placed_of_allocate {edits : List Edit} {m : Memory} (addressable : m.Addressable)
    (fits : (build edits).allocate m.size = .ok t) (short : ∀ v ∈ t.entries, v.Short) :
    Placed t.entries m := by
  have sound := sound_build edits
  have packed := packed_of_allocate sound addressable fits
  have total : sizes (build edits).entries ≤ m.size := totalSize_eq _ ▸ (allocate_eq fits).1
  have last : (build edits).edited (.allocate m.size) = t := by rw [edited, fits]
  refine ⟨fun v member => ?_, fun v member => ?_, packed.apart⟩
  · refine Variable.Declared.measured ?_ (short v member)
    rw [← last] at member
    exact declared_edited (declared_build edits) (.allocate m.size) v member
  · have sized : 0 < v.size := (sound.allocate fits).sized v member
    have covered : range v ⊆ Set.Ico 1024 (1024 + sizes (build edits).entries) :=
      packed.covers ▸ Set.subset_biUnion_of_mem member
    rw [range, Set.Ico_subset_Ico_iff (by omega)] at covered
    rw [Memory.inRange_iff, Memory.base]
    omega

/-- After a reset the variables lie in memory as they were declared, text and bytes at full length, and
all else is zero. They are apart, so they may be written in any order. -/
theorem reset_lays_out_contents {δ : Type} [PortDevice δ] (edits : List Edit) (memory : Memory)
    (addressable : memory.Addressable) {t : VariableTable}
    (fits : (build edits).allocate memory.size = .ok t) (short : ∀ v ∈ t.entries, v.Short) :
    let image := t.fill memory.clear
    image.size = memory.size ∧ t.Shows image ∧ t.declared = (build edits).declared ∧
    (∀ v ∈ t.entries, v.Measured) ∧
    (∀ entries, entries.Perm t.entries → fill ⟨entries⟩ memory.clear = image) ∧
    ∀ m : Machine δ, m.table = t → m.processor.memory = memory →
      m.reset.2.processor.memory = image := by
  intro image
  have placed := placed_of_allocate addressable fits short
  have size (u : VariableTable) : (u.fill memory.clear).size = memory.size :=
    (u.size_fill _).trans memory.size_clear
  refine ⟨size t, shows_fill placed, declared_of_allocate fits, placed.measured,
    fun entries perm => ?_, fun m table before => ?_⟩
  · have placed' : Placed entries memory := by
      refine ⟨fun v member => placed.measured v (perm.mem_iff.mp member),
        fun v member => placed.inside v (perm.mem_iff.mp member), ?_⟩
      exact perm.symm.pairwise placed.apart fun apart => apart.symm
    exact (shows_fill (t := ⟨entries⟩) placed').eq (shows_fill placed) (fun v => perm.mem_iff.symm)
      ((size _).trans (size t).symm)
  · obtain ⟨observers, eq⟩ := m.reset_eq
    have held : m.tock.processor.memory = memory := before
    rw [eq, Machine.restarted_eq, held, table]
    rfl

/-- A number, a text with a pair of units and an empty array, in a memory that was full of ones,
written in either order. -/
theorem reset_lays_out_contents_mixed :
    let edits : List Edit :=
      [.add { name := "count", size := 2, initial := some (.number 0x12345) } 64,
        .add { name := "greeting", initial := some (.text "A😀") } 64,
        .add { name := "spare", size := 5, initial := some (.bytes []) } 64]
    let memory : Memory := ⟨⟨Array.replicate 64 0xFF⟩⟩
    ∃ t, (build edits).allocate memory.size = .ok t ∧ memory.Addressable ∧
      (∀ v ∈ t.entries, v.Short) ∧ t.Shows (t.fill memory.clear) ∧
      fill ⟨t.entries.reverse⟩ memory.clear = t.fill memory.clear ∧
      ∃ v ∈ t.entries, v.initial = some (.text "A😀") ∧ v.size = 8 ∧
        ∀ i < 8, (t.fill memory.clear).byteAt (v.address.toNat + i) =
          [0x41, 0x00, 0x3D, 0xD8, 0x00, 0xDE, 0x00, 0x00].getD i 0 := by
  intro edits memory
  have size : memory.size = 64 := by decide +kernel
  have addressable : memory.Addressable := by
    rw [Memory.Addressable, size]
    decide
  have within : (build edits).totalSize ≤ memory.size := by decide +kernel
  obtain ⟨t, fits⟩ := exists_allocate within
  have images : ((build edits).allocate memory.size).toOption.all
      (fun t => t.entries.all (·.image.length < 2 ^ 32)) = true := by decide +kernel
  have greeting : ((build edits).allocate memory.size).toOption.all
      (fun t => t.entries.any fun v => v.initial = some (.text "A😀") ∧ v.size = 8) = true := by
    decide +kernel
  rw [fits] at images greeting
  have short (v : Variable) (member : v ∈ t.entries) : v.Short :=
    Variable.short_of_image (of_decide_eq_true (List.all_eq_true.mp images v member))
  obtain ⟨-, laid, -, -, anyOrder, -⟩ :=
    reset_lays_out_contents (δ := Board) edits memory addressable fits short
  obtain ⟨v, member, known⟩ := List.any_eq_true.mp greeting
  obtain ⟨initial, long⟩ := of_decide_eq_true known
  obtain ⟨data, declares, shown⟩ := laid.contents v member
  have spelled : Text.Spells [0x41, 0x00, 0x3D, 0xD8, 0x00, 0xDE] "A😀".toList := by
    have first : (0x3D : UInt8).toNat + 256 * (0xD8 : UInt8).toNat = 0xD800 + 0x3D := rfl
    have second : (0x00 : UInt8).toNat + 256 * (0xDE : UInt8).toNat = 0xDC00 + 0x200 := rfl
    exact .unit rfl (.pair first second (by decide) (by decide) rfl .nil)
  obtain rfl := declares.unique (.laid initial (.text spelled))
  rw [long] at shown
  exact ⟨t, fits, addressable, short, laid, anyOrder _ t.entries.reverse_perm, v, member, initial,
    long, shown⟩

end VariableTable

end ReducedX86
