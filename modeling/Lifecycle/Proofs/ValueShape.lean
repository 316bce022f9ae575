import Mathlib.Algebra.Group.Int.Defs
import Lifecycle.Proofs.Drawing
import Lifecycle.Proofs.NearestDeclaration
import Lifecycle.Proofs.NullFree
import Lifecycle.Proofs.UnitDouble

/-!
# The shape of made-up values

A made-up value has the shape of its type, is `null` only where nothing can be made up, and holds no
`null` further inside. The depth of required properties leaves room for fewer levels of schemas than
are gone through, so the bound on the levels never shows.
-/
namespace Lifecycle.Mock

open Json

/-- One to sixteen small letters. -/
structure IsText (s : String) : Prop where
  nonempty : 1 ≤ s.length
  short : s.length ≤ 16
  letters : ∀ c ∈ s.toList, 'a' ≤ c ∧ c ≤ 'z'

/-- A key that the path of a property of a schema or of its ancestors starts with. -/
def IsTopKey (schemas : List Schema) (schema : Schema) (key : String) : Prop :=
  ∃ s ∈ schema :: ancestors schemas schema, ∃ p ∈ s.properties,
    p.constant = false ∧ p.path.head? = some key

/-- The shape of the values of a type at a depth. -/
inductive HasShape (schemas : List Schema) : Nat → ValueType → Value → Prop
  | string {depth : Nat} {s : String} : IsText s → HasShape schemas depth .string (.string s)
  | integer {depth : Nat} {n : Int} :
    0 ≤ n → n ≤ 2 ^ 31 - 2 → HasShape schemas depth .integer (.integer n)
  | long {depth : Nat} {n : Int} :
    0 ≤ n → n < 2 ^ 63 → HasShape schemas depth .long (.integer n)
  | float {depth : Nat} {x : Float} :
    x.isFinite = true → HasShape schemas depth .float (.number (.double x))
  | double {depth : Nat} {x : Float} :
    x.isFinite = true → HasShape schemas depth .double (.number (.double x))
  | boolean {depth : Nat} {b : Bool} : HasShape schemas depth .boolean (.bool b)
  | dateTime {depth : Nat} {s : String} : HasShape schemas depth .dateTime (.string s)
  | duration {depth : Nat} {s : String} : HasShape schemas depth .duration (.string s)
  | uuid {depth : Nat} {s : String} : HasShape schemas depth .uuid (.string s)
  | url {depth : Nat} {s : String} :
    IsText s → HasShape schemas depth .url (.string ("http://example.org/" ++ s))
  | untyped {depth : Nat} {s : String} :
    IsText s → HasShape schemas depth .object (.string ("data" ++ s))
  | binary {depth : Nat} : HasShape schemas depth .binary .null
  | emptyEnum {depth : Nat} : HasShape schemas depth (.enum []) .null
  | enum {depth : Nat} {values : List String} {s : String} :
    s ∈ values → HasShape schemas depth (.enum values) (.string s)
  | list {depth : Nat} {item : ValueType} {items : List Value} :
    items.length ≤ 4 → (optionalDepth < depth → items = []) → (∀ w ∈ items, w ≠ .null) →
    (∀ w ∈ items, HasShape schemas (depth + 1) item w) →
    HasShape schemas depth (.list item) (.array items)
  | map {depth : Nat} {item : ValueType} {members : Keyed Value} :
    members.length ≤ 4 → (optionalDepth < depth → members = []) →
    (∀ p ∈ members, IsText p.1) → (∀ p ∈ members, p.2 ≠ .null) →
    (∀ p ∈ members, HasShape schemas (depth + 1) item p.2) →
    HasShape schemas depth (.map item) (.object members)
  | unknown {depth : Nat} {name : String} :
    findSchema schemas name = none → HasShape schemas depth (.model name) .null
  | tooDeep {depth : Nat} {name : String} :
    requiredDepth < depth + 1 → HasShape schemas depth (.model name) .null
  | model {depth : Nat} {name : String} {schema : Schema} {members : Keyed Value} :
    findSchema schemas name = some schema → depth + 1 ≤ requiredDepth →
    (∀ key ∈ Keyed.keys members, IsTopKey schemas schema key) →
    HasShape schemas depth (.model name) (.object members)

/-- Nothing can be made up of a type at a depth. -/
def IsVoid (schemas : List Schema) (depth : Nat) : ValueType → Prop
  | .binary => True
  | .enum values => values = []
  | .model name => findSchema schemas name = none ∨ requiredDepth < depth + 1
  | _ => False

/-- A value is what may be made up of a type at a depth. -/
structure Fits (schemas : List Schema) (depth : Nat) (type : ValueType) (v : Value) : Prop where
  null_iff : v = .null ↔ IsVoid schemas depth type
  nullFree : v.NullFree
  shape : HasShape schemas depth type v

section

variable {schemas : List Schema} {γ : Type} [Generator γ]

/-! ### Texts and numbers -/

theorem yields_below (h : Generator.InRange γ) {bound : Nat} (hb : 0 < bound) :
    Yields (drawn (Generator.below bound) : Draw γ Nat) (· < bound) :=
  yields_drawn fun g => h.below_lt bound g hb

theorem yields_letter (h : Generator.InRange γ) :
    Yields (letter : Draw γ Char) fun c => 'a' ≤ c ∧ c ≤ 'z' := by
  have hl : ∀ n < 26, 'a' ≤ Char.ofNat ('a'.toNat + n) ∧ Char.ofNat ('a'.toNat + n) ≤ 'z' := by
    decide
  refine (yields_below h (by decide)).bind ?_
  intro n hn
  exact yields_pure (hl n hn)

theorem yields_text (h : Generator.InRange γ) : Yields (text : Draw γ String) IsText := by
  refine (yields_below h (by decide)).bind ?_
  intro n hn
  refine (yields_repeated (yields_letter h) (n + 1)).bind ?_
  rintro letters ⟨hlen, hall⟩
  have hn : n < 16 := hn
  have hl : (String.ofList letters).length = n + 1 := by rw [String.length_ofList, hlen]
  refine yields_pure ⟨by omega, by omega, ?_⟩
  rw [String.toList_ofList]
  exact hall

theorem yields_percentage (h : Generator.InRange γ) :
    Yields (do pure (.double ((← drawn Generator.unit) * 100.0)) : Draw γ Value)
      fun v => ∃ x : Float, x.isFinite = true ∧ v = .number (.double x) := by
  have hx : Yields (drawn Generator.unit : Draw γ Float) fun x => (x * 100.0).isFinite = true :=
    yields_drawn fun g => UnitDouble.isFinite_mul_hundred (h.unit_nonneg g) (h.unit_lt g)
  refine hx.bind ?_
  intro x hx
  refine yields_pure ⟨x * 100.0, hx, ?_⟩
  rw [Value.double, if_pos hx]

/-! ### Lists and maps -/

omit [Generator γ] in
/-- Nulls are dropped, so lists may come out shorter than drawn. -/
theorem yields_items {item : Draw γ Value} {P : Value → Prop} (hi : Yields item P) (n : Nat) :
    Yields (items item n) fun vs => vs.length ≤ n ∧ ∀ w ∈ vs, w ≠ .null ∧ P w := by
  induction n with
  | zero => exact yields_pure ⟨Nat.le_refl 0, by simp⟩
  | succ n ih =>
    refine hi.bind fun v hv => ih.bind ?_
    rintro rest ⟨hlen, hall⟩
    refine yields_pure ?_
    cases hn : v.isNull with
    | true =>
      rw [if_pos rfl]
      exact ⟨by omega, hall⟩
    | false =>
      have hne : v ≠ .null := Value.ne_null_of_isNull hn
      simp only [Bool.false_eq_true, if_false, List.length_cons, List.forall_mem_cons]
      exact ⟨by omega, ⟨hne, hv⟩, hall⟩

/-- A key drawn twice is put once, so maps may come out smaller than drawn. -/
theorem yields_entries (h : Generator.InRange γ) {item : Draw γ Value} {P : Value → Prop}
    (hi : Yields item P) (n : Nat) {members : Keyed Value}
    (hm : ∀ p ∈ members, IsText p.1 ∧ p.2 ≠ .null ∧ P p.2) :
    Yields (entries item n members) fun after => after.length ≤ members.length + n ∧
      ∀ p ∈ after, IsText p.1 ∧ p.2 ≠ .null ∧ P p.2 := by
  induction n generalizing members with
  | zero => exact yields_pure ⟨Nat.le_refl _, hm⟩
  | succ n ih =>
    refine hi.bind fun v hv => ?_
    cases hn : v.isNull with
    | true =>
      rw [if_pos rfl]
      exact (ih hm).mono fun after ha => ⟨by omega, ha.2⟩
    | false =>
      have hne : v ≠ .null := Value.ne_null_of_isNull hn
      simp only [Bool.false_eq_true, if_false]
      refine (yields_text h).bind fun key hkey => ?_
      have hput : ∀ p ∈ Keyed.put key v members, IsText p.1 ∧ p.2 ≠ .null ∧ P p.2 := by
        intro p hp
        rcases Keyed.mem_put hp with rfl | hp
        · exact ⟨hkey, hne, hv⟩
        · exact hm p hp
      have hlen : (Keyed.put key v members).length ≤ members.length + 1 := Keyed.length_put_le
      exact (ih hput).mono fun after ha => ⟨by omega, ha.2⟩

/-! ### Objects -/

/-- What holds of the members there are, and is kept by each property that is written, holds of all
members in the end. -/
theorem yields_members_kept {valueOf : ValueType → Draw γ Value} {made : Property → Value → Prop}
    {kept : Keyed Value → Prop} (depth : Nat) {properties : List Property}
    (hv : ∀ p ∈ properties, Yields (valueOf p.type) (made p))
    (hw : ∀ p ∈ properties, p.constant = false → ∀ v members after, made p v → v ≠ .null →
      kept members → insertChecked p.path v members = .ok after → kept after)
    {members : Keyed Value} (hm : kept members) :
    Yields (Mock.members valueOf depth properties members) kept := by
  induction properties generalizing members with
  | nil => exact yields_pure hm
  | cons p rest ih =>
    rw [List.forall_mem_cons] at hv hw
    refine (yields_leavesOut depth p).bind fun out hout => ?_
    cases out with
    | true => exact ih hv.2 hw.2 hm
    | false =>
      refine hv.1.bind fun v hmade => ?_
      cases hn : v.isNull with
      | true => exact ih hv.2 hw.2 hm
      | false =>
        have hne : v ≠ .null := Value.ne_null_of_isNull hn
        simp only [Bool.false_eq_true, if_false]
        have hwritten : Yields (ExceptT.mk (pure (insertChecked p.path v members)) :
            Draw γ (Keyed Value)) kept :=
          yields_of_outcome fun after => hw.1 (hout rfl) v members after hmade hne hm
        exact hwritten.bind fun after hafter => ih hv.2 hw.2 hafter

/-- Members are only added under the first names of paths, and never as `null`. -/
theorem yields_members {valueOf : ValueType → Draw γ Value}
    (hv : ∀ type, Yields (valueOf type) Value.NullFree) (depth : Nat) (properties : List Property) :
    Yields (Mock.members valueOf depth properties []) fun after =>
      (Value.object after).NullFree ∧ ∀ key ∈ Keyed.keys after,
        ∃ p ∈ properties, p.constant = false ∧ p.path.head? = some key := by
  have hempty : (Value.object []).NullFree := Value.nullFree_object.mpr (by simp)
  refine yields_members_kept depth (fun p _ => hv p.type) ?_ ⟨hempty, nofun⟩
  rintro p hp hc v members after hfree hne ⟨hm, hkeys⟩ ha
  obtain rfl := eq_insertAt_of_insertChecked ha
  refine ⟨nullFree_insertAt hne hfree hm, ?_⟩
  intro key hkey
  rcases mem_keys_insertAt hkey with h | h
  · exact hkeys key h
  · exact ⟨p, hp, hc, h⟩

/-! ### Values of all types -/

theorem fits_string {depth : Nat} {type : ValueType} {s : String}
    (hv : ¬ IsVoid schemas depth type) (h : HasShape schemas depth type (.string s)) :
    Fits schemas depth type (.string s) :=
  ⟨by simp [hv], Value.nullFree_string s, h⟩

theorem fits_number {depth : Nat} {type : ValueType} {n : Number}
    (hv : ¬ IsVoid schemas depth type) (h : HasShape schemas depth type (.number n)) :
    Fits schemas depth type (.number n) :=
  ⟨by simp [hv], Value.nullFree_number n, h⟩

theorem fits_null {depth : Nat} {type : ValueType}
    (hv : IsVoid schemas depth type) (h : HasShape schemas depth type .null) :
    Fits schemas depth type .null :=
  ⟨by simp [hv], Value.nullFree_null, h⟩

theorem fits_array {depth : Nat} {item : ValueType} {items : List Value} (hlen : items.length ≤ 4)
    (hdeep : optionalDepth < depth → items = [])
    (hall : ∀ w ∈ items, w ≠ .null ∧ Fits schemas (depth + 1) item w) :
    Fits schemas depth (.list item) (.array items) where
  null_iff := by simp [IsVoid]
  nullFree := Value.nullFree_array.mpr fun w hw => ⟨(hall w hw).1, (hall w hw).2.nullFree⟩
  shape := .list hlen hdeep (fun w hw => (hall w hw).1) fun w hw => (hall w hw).2.shape

theorem fits_map {depth : Nat} {item : ValueType} {members : Keyed Value}
    (hlen : members.length ≤ 4) (hdeep : optionalDepth < depth → members = [])
    (hall : ∀ p ∈ members, IsText p.1 ∧ p.2 ≠ .null ∧ Fits schemas (depth + 1) item p.2) :
    Fits schemas depth (.map item) (.object members) where
  null_iff := by simp [IsVoid]
  nullFree := Value.nullFree_object.mpr fun p hp => ⟨(hall p hp).2.1, (hall p hp).2.2.nullFree⟩
  shape := .map hlen hdeep (fun p hp => (hall p hp).1) (fun p hp => (hall p hp).2.1)
    fun p hp => (hall p hp).2.2.shape

section

variable {model : Nat → String → Draw γ Value} {depth : Nat}

/-- Of an enumeration one of its values is picked, if there are any. -/
theorem yields_enum (h : Generator.InRange γ) (values : List String) :
    Yields (value model depth (.enum values)) (Fits schemas depth (.enum values)) := by
  cases values with
  | nil => exact yields_pure (fits_null rfl .emptyEnum)
  | cons first rest =>
    refine (yields_below h (Nat.succ_pos _)).bind fun n hn => yields_pure ?_
    have hmem : (first :: rest).getD n first ∈ first :: rest := by
      rw [List.getD_eq_getElem?_getD, List.getElem?_eq_getElem hn, Option.getD_some]
      exact List.getElem_mem hn
    exact fits_string (by simp [IsVoid]) (.enum hmem)

/-- Lists fit, if their items fit one level deeper. -/
theorem yields_list (h : Generator.InRange γ) {item : ValueType}
    (hi : Yields (value model (depth + 1) item) (Fits schemas (depth + 1) item)) :
    Yields (value model depth (.list item)) (Fits schemas depth (.list item)) := by
  unfold value
  split
  · refine (yields_below h (by decide)).bind fun n hn => ?_
    have hn : n + 1 ≤ 4 := hn
    refine (yields_items hi (n + 1)).bind ?_
    rintro items ⟨hlen, hall⟩
    exact yields_pure (fits_array (by omega) (by omega) hall)
  · exact yields_pure (fits_array (by simp) (fun _ => rfl) (by simp))

/-- Maps fit, if their values fit one level deeper. -/
theorem yields_map (h : Generator.InRange γ) {item : ValueType}
    (hi : Yields (value model (depth + 1) item) (Fits schemas (depth + 1) item)) :
    Yields (value model depth (.map item)) (Fits schemas depth (.map item)) := by
  unfold value
  split
  · refine (yields_below h (by decide)).bind fun n hn => ?_
    have hn : n + 1 ≤ 4 := hn
    refine (yields_entries h hi (n + 1) (by simp)).bind ?_
    rintro members ⟨hlen, hall⟩
    rw [List.length_nil, Nat.zero_add] at hlen
    exact yields_pure (fits_map (by omega) (by omega) hall)
  · exact yields_pure (fits_map (by simp) (fun _ => rfl) (by simp))

end

/-- Values of all types fit, if those of schemas fit that lie deeper. -/
theorem yields_value (h : Generator.InRange γ) {model : Nat → String → Draw γ Value} {base : Nat}
    (hm : ∀ depth, base ≤ depth → ∀ name,
      Yields (model (depth + 1) name) (Fits schemas depth (.model name)))
    (type : ValueType) {depth : Nat} (hd : base ≤ depth) :
    Yields (value model depth type) (Fits schemas depth type) := by
  induction type generalizing depth with
  | string =>
    exact (yields_text h).bind fun s hs => yields_pure (fits_string id (.string hs))
  | integer =>
    refine (yields_below h (by decide)).bind fun n hn => yields_pure ?_
    have hn : n < 2 ^ 31 - 1 := hn
    exact fits_number id (.integer (by omega) (by omega))
  | long =>
    refine (yields_drawn (P := (· < 2 ^ 63)) h.long_lt).bind fun n hn => yields_pure ?_
    exact fits_number id (.long (by omega) (by omega))
  | float =>
    refine (yields_percentage h).mono ?_
    rintro _ ⟨x, hx, rfl⟩
    exact fits_number id (.float hx)
  | double =>
    refine (yields_percentage h).mono ?_
    rintro _ ⟨x, hx, rfl⟩
    exact fits_number id (.double hx)
  | boolean =>
    refine (yields_any _).bind fun b _ => yields_pure ⟨?_, Value.nullFree_bool b, .boolean⟩
    simp [IsVoid]
  | dateTime => exact (yields_any _).bind fun n _ => yields_pure (fits_string id .dateTime)
  | duration => exact (yields_any _).bind fun n _ => yields_pure (fits_string id .duration)
  | uuid => exact (yields_any _).bind fun s _ => yields_pure (fits_string id .uuid)
  | url => exact (yields_text h).bind fun s hs => yields_pure (fits_string id (.url hs))
  | object => exact (yields_text h).bind fun s hs => yields_pure (fits_string id (.untyped hs))
  | binary => exact yields_pure (fits_null trivial .binary)
  | enum values => exact yields_enum h values
  | list item ih => exact yields_list h (ih (Nat.le_succ_of_le hd))
  | map item ih => exact yields_map h (ih (Nat.le_succ_of_le hd))
  | model name => exact hm depth hd name

/-- As long as there are levels left for all permitted depths, objects of schemas fit. -/
theorem yields_objectWithin (h : Generator.InRange γ) (levels : Nat) {depth : Nat}
    (hd : requiredDepth < levels + (depth + 1)) (name : String) :
    Yields (objectWithin schemas levels (depth + 1) name : Draw γ Value)
      (Fits schemas depth (.model name)) := by
  induction levels generalizing depth name with
  | zero =>
    have hdeep : requiredDepth < depth + 1 := by omega
    exact yields_pure (fits_null (.inr hdeep) (.tooDeep hdeep))
  | succ levels ih =>
    rw [objectWithin]
    cases hs : findSchema schemas name with
    | none => exact yields_pure (fits_null (.inl hs) (.unknown hs))
    | some schema =>
      dsimp only [object]
      by_cases hdeep : requiredDepth < depth + 1
      · rw [if_pos hdeep]
        exact yields_pure (fits_null (.inr hdeep) (.tooDeep hdeep))
      · rw [if_neg hdeep]
        have hdeeper (d : Nat) (hd : depth + 1 ≤ d) (name : String) :
            Yields (objectWithin schemas levels (d + 1) name : Draw γ Value)
              (Fits schemas d (.model name)) := ih (by omega) name
        have hv (type : ValueType) :
            Yields (value (objectWithin schemas levels) (depth + 1) type : Draw γ Value)
              Value.NullFree :=
          (yields_value h hdeeper type (Nat.le_refl _)).mono fun v hv => hv.nullFree
        refine (yields_members hv (depth + 1) (mergedProperties schemas schema)).bind ?_
        rintro members ⟨hfree, hkeys⟩
        refine yields_pure ⟨by simp [IsVoid, hs, hdeep], hfree, .model hs (by omega) ?_⟩
        intro key hkey
        obtain ⟨p, hp, hc, hhead⟩ := hkeys key hkey
        obtain ⟨s, hs, hp⟩ := exists_layer_of_mem_mergedProperties hp
        exact ⟨s, hs, p, hp, hc, hhead⟩

theorem yields_valueOfType (h : Generator.InRange γ) (schemas : List Schema) (depth : Nat)
    (type : ValueType) :
    Yields (valueOfType schemas depth type : Draw γ Value) (Fits schemas depth type) := by
  have hm (d : Nat) (hd : depth ≤ d) (name : String) :
      Yields (valueOfSchemaNamed schemas (d + 1) name : Draw γ Value)
        (Fits schemas d (.model name)) := by
    have hl : requiredDepth < levels + (d + 1) := by
      unfold levels
      omega
    exact yields_objectWithin h levels hl name
  exact yields_value h hm type (Nat.le_refl depth)

end

end Lifecycle.Mock
