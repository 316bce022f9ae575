import Lifecycle.Proofs.ValueShape

/-!
# How deep made-up values reach

Schemas may require each other in a circle, and parents may go round in one. Still no more than
`requiredDepth + 1` objects of schemas lie one inside the other, however often schemas are asked for,
and what each of them adds is bounded by the longest path and the deepest type of the service. The
bound on the number of objects is met by a schema that requires itself.
-/
namespace Lifecycle

namespace Json

mutual

/-- How many arrays and objects of a value lie one inside the other at most. -/
def Value.nesting : Value → Nat
  | .array items => nestingOfItems items + 1
  | .object members => nestingOfMembers members + 1
  | _ => 0

def nestingOfItems : List Value → Nat
  | [] => 0
  | v :: rest => max v.nesting (nestingOfItems rest)

def nestingOfMembers : List (String × Value) → Nat
  | [] => 0
  | (_, v) :: rest => max v.nesting (nestingOfMembers rest)

end

/-- So many objects one inside the other, each the only member of the one around it. -/
def chain (key : String) : Nat → Value
  | 0 => .null
  | 1 => .object []
  | n + 2 => .object [(key, chain key (n + 1))]

namespace Value

variable {n : Nat}

theorem nesting_array_le {items : List Value} :
    (array items).nesting ≤ n + 1 ↔ ∀ w ∈ items, w.nesting ≤ n := by
  rw [nesting, Nat.add_le_add_iff_right]
  induction items with
  | nil => simp [nestingOfItems]
  | cons v rest ih => rw [nestingOfItems, Nat.max_le, ih, List.forall_mem_cons]

theorem nesting_object_le {members : Keyed Value} :
    (object members).nesting ≤ n + 1 ↔ ∀ p ∈ members, p.2.nesting ≤ n := by
  rw [nesting, Nat.add_le_add_iff_right]
  induction members with
  | nil => simp [nestingOfMembers]
  | cons p rest ih =>
    obtain ⟨key, v⟩ := p
    rw [nestingOfMembers, Nat.max_le, ih, List.forall_mem_cons]

theorem IsLeaf.nesting_le {v : Value} (h : v.IsLeaf) (n : Nat) : v.nesting ≤ n := by
  cases h <;> exact Nat.zero_le n

end Value

variable {n : Nat} {v : Value} {members : Keyed Value}

theorem nesting_put_le {key : String} (hv : v.nesting ≤ n)
    (hm : (Value.object members).nesting ≤ n + 1) :
    (Value.object (Keyed.put key v members)).nesting ≤ n + 1 := by
  rw [Value.nesting_object_le] at hm ⊢
  intro p hp
  rcases Keyed.mem_put hp with rfl | hp
  · exact hv
  · exact hm p hp

/-- A value that is written at a path lies as many objects further inside as the path has names. -/
theorem nesting_insertAt_le {path : List String} (hv : v.nesting + path.length ≤ n)
    (hm : (Value.object members).nesting ≤ n) :
    (Value.object (insertAt path v members)).nesting ≤ n := by
  induction path generalizing members n with
  | nil => exact hm
  | cons key rest ih =>
    rw [List.length_cons] at hv
    obtain ⟨n, rfl⟩ : ∃ k, n = k + 1 := ⟨n - 1, by omega⟩
    cases rest with
    | nil => exact nesting_put_le (by simpa using hv) hm
    | cons next path =>
      rw [List.length_cons] at hv
      have hv : v.nesting + (next :: path).length ≤ n := by
        rw [List.length_cons]
        omega
      rw [insertAt]
      split
      · have he : (Value.object []).nesting ≤ n := by
          rw [Value.nesting, nestingOfMembers]
          rw [List.length_cons] at hv
          omega
        exact nesting_put_le (ih hv he) hm
      · rename_i inner hl
        obtain ⟨front, back, rfl, -⟩ := List.lookup_eq_some_iff.mp hl
        have hi := Value.nesting_object_le.mp hm (key, .object inner) (by simp)
        exact nesting_put_le (ih hv hi) hm
      · exact hm

end Json

/-- How many lists and maps a type has one inside the other. -/
def ValueType.nesting : ValueType → Nat
  | .list item => item.nesting + 1
  | .map value => value.nesting + 1
  | _ => 0

namespace Mock

open Json

/-- The greatest number of names on the path of a property. -/
def longestPath (schemas : List Schema) : Nat :=
  (((schemas.flatMap (·.properties)).map (·.path.length)).max?).getD 0

/-- The greatest nesting of the type of a property. -/
def deepestType (schemas : List Schema) : Nat :=
  (((schemas.flatMap (·.properties)).map (·.type.nesting)).max?).getD 0

/-- The greatest nesting of the objects of schemas at a depth. -/
def nestingLimit (schemas : List Schema) (depth : Nat) : Nat :=
  if depth ≤ requiredDepth then
    (requiredDepth + 1 - depth) * (longestPath schemas + deepestType schemas) + 1
  else 0

/-- A schema that is found by its name and has one property, in which it requires itself. -/
structure RequiresItself (schemas : List Schema) (schema : Schema) (key : String) : Prop where
  found : findSchema schemas schema.name = some schema
  parentless : schema.parent = none
  property : ∃ p, schema.properties = [p] ∧ p.required = true ∧ p.constant = false ∧
    p.serializedName = key ∧ p.type = .model schema.name

section

variable {schemas : List Schema} {schema : Schema} {p : Property}

theorem length_path_le (hs : schema ∈ schemas) (hp : p ∈ schema.properties) :
    p.path.length ≤ longestPath schemas :=
  List.le_max?_getD_of_mem (List.mem_map_of_mem (List.mem_flatMap_of_mem hs hp))

theorem nesting_type_le (hs : schema ∈ schemas) (hp : p ∈ schema.properties) :
    p.type.nesting ≤ deepestType schemas :=
  List.le_max?_getD_of_mem (List.mem_map_of_mem (f := (·.type.nesting))
    (List.mem_flatMap_of_mem hs hp))

/-- The deeper an object begins, the less room it has. -/
theorem nestingLimit_anti {d d' : Nat} (h : d ≤ d') :
    nestingLimit schemas d' ≤ nestingLimit schemas d := by
  unfold nestingLimit
  split
  · rw [if_pos (by omega), Nat.add_le_add_iff_right]
    exact Nat.mul_le_mul_right _ (by omega)
  · exact Nat.zero_le _

/-- One more object of a schema adds at most a path and the lists and maps of a type. -/
theorem nestingLimit_step (schemas : List Schema) {d : Nat} (h : d ≤ requiredDepth) :
    longestPath schemas + deepestType schemas + nestingLimit schemas (d + 1) ≤
      nestingLimit schemas d := by
  unfold nestingLimit
  rw [if_pos h]
  split
  · rw [show requiredDepth + 1 - d = requiredDepth + 1 - (d + 1) + 1 by omega, Nat.succ_mul]
    omega
  · rw [show requiredDepth + 1 - d = 1 by omega]
    omega

end

/-! ### Bounds -/

section

variable {γ : Type} [Generator γ] {schemas : List Schema} {schema : Schema}

/-- By induction on the type; models one level further in keep to a limit. -/
theorem yields_nesting_value (h : Generator.InRange γ) {model : Nat → String → Draw γ Value}
    {limit base : Nat} (hm : ∀ d, base < d → ∀ name, Yields (model d name) (·.nesting ≤ limit))
    (type : ValueType) {depth : Nat} (hd : base ≤ depth) :
    Yields (value model depth type) (·.nesting ≤ type.nesting + limit) := by
  induction type generalizing depth with
  | list item ih =>
    rw [ValueType.nesting, Nat.add_right_comm]
    unfold value
    split
    · refine (yields_any _).bind fun n _ => ?_
      refine (yields_items (ih (by omega)) (n + 1)).bind fun items hi => yields_pure ?_
      exact Value.nesting_array_le.mpr fun w hw => (hi.2 w hw).2
    · exact yields_pure (Value.nesting_array_le.mpr (by simp))
  | map item ih =>
    rw [ValueType.nesting, Nat.add_right_comm]
    unfold value
    split
    · refine (yields_any _).bind fun n _ => ?_
      refine (yields_entries h (ih (by omega)) (n + 1) (by simp)).bind fun ms hm => yields_pure ?_
      exact Value.nesting_object_le.mpr fun p hp => (hm.2 p hp).2.2
    · exact yields_pure (Value.nesting_object_le.mpr (by simp))
  | model name =>
    exact (hm (depth + 1) (by omega) name).mono fun v hv => Nat.le_add_left_of_le hv
  | _ => exact (yields_leaf model depth rfl).mono fun v hv => hv.nesting_le _

/-- Each path adds its own length, and each type its own nesting. -/
theorem yields_nesting_object (h : Generator.InRange γ) {named : Nat → String → Draw γ Value}
    (hn : ∀ d name, Yields (named d name) (·.nesting ≤ nestingLimit schemas d))
    (hs : schema ∈ schemas) (depth : Nat) :
    Yields (object schemas named depth schema) (·.nesting ≤ nestingLimit schemas depth) := by
  unfold object
  by_cases hdeep : requiredDepth < depth
  · rw [if_pos hdeep]
    exact yields_pure (Nat.zero_le _)
  · rw [if_neg hdeep]
    have hd : depth ≤ requiredDepth := Nat.le_of_not_lt hdeep
    have hpos : 1 ≤ nestingLimit schemas depth := by
      rw [nestingLimit, if_pos hd]
      exact Nat.le_add_left 1 _
    have hdeeper (d : Nat) (hd : depth < d) (name : String) :
        Yields (named d name) (·.nesting ≤ nestingLimit schemas (depth + 1)) :=
      (hn d name).mono fun v hv => Nat.le_trans hv (nestingLimit_anti hd)
    have hv (p : Property) := yields_nesting_value h hdeeper p.type (Nat.le_refl depth)
    have hkept : Yields (members (value named depth) depth (mergedProperties schemas schema) [])
        fun ms => (Value.object ms).nesting ≤ nestingLimit schemas depth := by
      refine yields_members_kept depth (fun p _ => hv p) ?_ hpos
      intro p hp _ v ms after hv _ hms ha
      obtain rfl := eq_insertAt_of_insertChecked ha
      obtain ⟨s, hmem, hps⟩ := exists_schema_of_mem_mergedProperties hs hp
      have hpath := length_path_le hmem hps
      have htype := nesting_type_le hmem hps
      have hstep := nestingLimit_step schemas hd
      exact nesting_insertAt_le (by omega) hms
    exact hkept.bind fun ms hms => yields_pure hms

theorem yields_nesting_objectWithin (h : Generator.InRange γ) (levels depth : Nat) (name : String) :
    Yields (objectWithin schemas levels depth name : Draw γ Value)
      (·.nesting ≤ nestingLimit schemas depth) := by
  induction levels generalizing depth name with
  | zero => exact yields_pure (Nat.zero_le _)
  | succ levels ih =>
    rw [objectWithin]
    cases hf : findSchema schemas name with
    | none => exact yields_pure (Nat.zero_le _)
    | some schema => exact yields_nesting_object h ih (List.mem_of_find?_eq_some hf) depth

end

/-! ### How many objects of schemas are made -/

section

variable {γ : Type} [Generator γ] {schemas : List Schema}

/-- The values of schemas by name, so many of them one inside the other. For those further inside,
another rule is followed. -/
def unfolded (schemas : List Schema) (further : Nat → String → Draw γ Value) :
    Nat → Nat → String → Draw γ Value
  | 0, depth, name => further depth name
  | levels + 1, depth, name =>
    match findSchema schemas name with
    | some schema => object schemas (unfolded schemas further levels) depth schema
    | none => pure .null

theorem value_congr {model model' : Nat → String → Draw γ Value} {base : Nat}
    (hm : ∀ d, base < d → ∀ name, model d name = model' d name) (type : ValueType) {depth : Nat}
    (hd : base ≤ depth) : value model depth type = value model' depth type := by
  induction type generalizing depth with
  | list item ih => rw [value, value, ih (by omega)]
  | map item ih => rw [value, value, ih (by omega)]
  | model name => exact hm (depth + 1) (by omega) name
  | enum values => cases values <;> rfl
  | _ => rfl

/-- An object asks for schemas further inside only, and for none below the depth of required
properties. -/
theorem object_congr {named named' : Nat → String → Draw γ Value} {depth : Nat}
    (hn : depth ≤ requiredDepth → ∀ d, depth < d → ∀ name, named d name = named' d name)
    (schema : Schema) :
    object schemas named depth schema = object schemas named' depth schema := by
  unfold object
  by_cases hdeep : requiredDepth < depth
  · rw [if_pos hdeep, if_pos hdeep]
  · have hv : value named depth = value named' depth := by
      funext type
      exact value_congr (hn (by omega)) type (Nat.le_refl depth)
    rw [hv]

/-- With levels to spare, what is followed further inside is never reached. -/
theorem unfolded_eq_objectWithin (further : Nat → String → Draw γ Value) {levels n depth : Nat}
    (hl : requiredDepth < levels + depth) (hn : requiredDepth < n + depth) (name : String) :
    unfolded schemas further (n + 1) depth name = objectWithin schemas levels depth name := by
  induction levels generalizing n depth name with
  | zero =>
    rw [unfolded, objectWithin]
    cases findSchema schemas name with
    | none => rfl
    | some schema => exact if_pos (by omega)
  | succ levels ih =>
    rw [unfolded, objectWithin]
    cases findSchema schemas name with
    | none => rfl
    | some schema =>
      refine object_congr (fun hd d hlt name => ?_) schema
      obtain ⟨n, rfl⟩ : ∃ k, n = k + 1 := ⟨n - 1, by omega⟩
      exact ih (by omega) (by omega) name

theorem unfolded_eq (further : Nat → String → Draw γ Value) {n depth : Nat}
    (hn : requiredDepth < n + depth) (name : String) :
    unfolded schemas further (n + 1) depth name = valueOfSchemaNamed schemas depth name :=
  unfolded_eq_objectWithin further (by unfold levels; omega) hn name

/-- A value of a schema by name is one of the schema that is found, at every depth: the number of
levels does not show. -/
theorem valueOfSchemaNamed_eq (schemas : List Schema) (depth : Nat) (name : String) :
    (valueOfSchemaNamed schemas depth name : Draw γ Value) =
      match findSchema schemas name with
      | some schema => valueOfSchema schemas depth schema
      | none => pure .null := by
  have hl : requiredDepth < levels + depth := Nat.le_add_right _ _
  have hm : requiredDepth < levels + 1 + depth := by omega
  have hmore : (valueOfSchemaNamed schemas depth name : Draw γ Value) =
      objectWithin schemas (levels + 1) depth name :=
    (unfolded_eq (fun _ _ => pure .null) hl name).symm.trans
      (unfolded_eq_objectWithin _ hm hl name)
  rw [hmore, objectWithin]
  rfl

/-- A schema that requires itself is repeated down to the depth of required properties. -/
theorem valueOfSchema_of_requiresItself {schema : Schema} {key : String}
    (h : RequiresItself schemas schema key) (hkey : splitPath key = [key])
    (hs : suggestsSecret key = false) (depth : Nat) :
    (valueOfSchema schemas depth schema : Draw γ Value) =
      pure (chain key (requiredDepth + 1 - depth)) := by
  obtain ⟨p, hp, hr, hc, rfl, ht⟩ := h.property
  have hm : mergedProperties schemas schema = [p] := by
    simp [mergedProperties, ancestors, ancestorsFrom, h.parentless, layeredProperties,
      unmetProperties, hp]
  generalize hk : requiredDepth + 1 - depth = k
  induction k generalizing depth with
  | zero =>
    rw [valueOfSchema, object, if_pos (by omega)]
    rfl
  | succ k ih =>
    have hi : (valueOfSchemaNamed schemas (depth + 1) schema.name : Draw γ Value) =
        pure (chain p.serializedName k) := by
      rw [valueOfSchemaNamed_eq, h.found]
      exact ih (depth + 1) (by omega)
    have hleaves : (leavesOut depth p : Draw γ Bool) = pure false := by
      rw [leavesOut, hc, hr]
      rfl
    rw [valueOfSchema, object, if_neg (by omega), hm, members, hleaves]
    simp only [pure_bind, ht, value, hi]
    cases k with
    | zero => rfl
    | succ k =>
      have hv : (chain p.serializedName (k + 1)).isNull = false := by cases k <;> rfl
      have hw : insertChecked p.path (chain p.serializedName (k + 1)) [] =
          .ok [(p.serializedName, chain p.serializedName (k + 1))] := by
        have hpath : p.path = [p.serializedName] := hkey
        have hfind : [p.serializedName].find? suggestsSecret = none := by simp [hs]
        rw [insertChecked, hpath, hfind]
        rfl
      rw [if_neg Bool.false_ne_true, hv, if_neg Bool.false_ne_true, hw]
      rfl

/-- However schemas refer to each other, making up a value comes to an end: on `n` levels of schemas,
of which the last lies below the depth of required properties, nothing is asked of those further
inside. An object of a schema is at most as deep as the properties of the schemas on these levels
allow, and nothing is made up below them. A schema that requires itself fills all of them. -/
theorem valueOfSchema_limits (h : Generator.InRange γ) {schema : Schema} (hs : schema ∈ schemas)
    (depth : Nat) :
    (∀ (further : Nat → String → Draw γ Value) (n : Nat), requiredDepth < n + depth →
      object schemas (unfolded schemas further n) depth schema =
          valueOfSchema schemas depth schema ∧
        ∀ type, value (unfolded schemas further (n + 1)) depth type =
          valueOfType schemas depth type) ∧
    (depth ≤ requiredDepth → Yields (valueOfSchema schemas depth schema : Draw γ Value) fun v =>
      v.nesting ≤
        (requiredDepth + 1 - depth) * (longestPath schemas + deepestType schemas) + 1) ∧
    (requiredDepth < depth → (valueOfSchema schemas depth schema : Draw γ Value) = pure .null) ∧
    (RequiresItself schemas schema "next" → (valueOfSchema schemas depth schema : Draw γ Value) =
      pure (chain "next" (requiredDepth + 1 - depth))) := by
  refine ⟨fun further n hn => ⟨?_, fun type => ?_⟩, fun hd => ?_, fun hd => ?_, fun hr => ?_⟩
  · refine object_congr (fun hd d hlt name => ?_) schema
    obtain ⟨n, rfl⟩ : ∃ k, n = k + 1 := ⟨n - 1, by omega⟩
    exact unfolded_eq further (by omega) name
  · refine value_congr (fun d hlt name => ?_) type (Nat.le_refl depth)
    exact unfolded_eq further (by omega) name
  · have hy := yields_nesting_object h (yields_nesting_objectWithin h levels) hs depth
    rw [nestingLimit, if_pos hd] at hy
    exact hy
  · exact if_pos hd
  · exact valueOfSchema_of_requiresItself hr (by decide +kernel) (by decide +kernel) depth

end

/-- A link requires the next one. -/
def link : Schema :=
  ⟨"Link", none, [], [⟨"next", "next", .model "Link", true, false, false, none⟩]⟩

/-- A branch and its twigs require, and extend, each other. -/
def branch : Schema :=
  ⟨"Branch", some "Twig", [],
    [⟨"twigs", "properties.twigs", .list (.map (.model "Twig")), true, false, false, none⟩]⟩

def twig : Schema :=
  ⟨"Twig", some "Branch", [], [⟨"branch", "branch", .model "Branch", true, false, false, none⟩]⟩

theorem limits_of_branch :
    let schemas := [link, branch, twig]
    Generator.InRange Counter ∧ branch ∈ schemas ∧ link ∈ schemas ∧
      RequiresItself schemas link "next" ∧
      (Yields (valueOfSchema schemas 9 branch : Draw Counter Value) fun v => v.nesting ≤ 9) ∧
      (valueOfSchema schemas 8 link : Draw Counter Value) =
        pure (.object [("next", .object [("next", .object [])])]) ∧
      (valueOfSchema schemas 11 link : Draw Counter Value) = pure .null := by
  intro schemas
  have hi := Counter.inRange
  have hb : branch ∈ schemas := by simp [schemas]
  have hl : link ∈ schemas := by simp [schemas]
  have hr : RequiresItself schemas link "next" :=
    ⟨by decide +kernel, rfl, _, rfl, rfl, rfl, rfl, rfl⟩
  have hlimit : (requiredDepth + 1 - 9) * (longestPath schemas + deepestType schemas) + 1 = 9 := by
    decide +kernel
  have hlink := valueOfSchema_limits hi hl
  refine ⟨hi, hb, hl, hr, ?_, (hlink 8).2.2.2 hr, (hlink 11).2.2.1 (by decide)⟩
  have hyields := (valueOfSchema_limits hi hb 9).2.1 (by decide)
  rwa [hlimit] at hyields

end Mock

end Lifecycle
