import Mathlib.Data.Nat.Find
import Mathlib.Logic.Relation
import Lifecycle.Proofs.NearestDeclaration

/-!
# Lines of descent

Parents are looked up by name, so a line of descent may end at a name that no schema has, and it may
go round in a circle. The ancestors are followed for one step more than there are schemas. That is
enough to meet each of them before any is met again. What is met again adds no property, so the
merged properties are those of the whole line: the nearest declaration of each name, in the order of
the furthest schema first.
-/
namespace Lifecycle

/-- The schema that a schema names as its parent. -/
def Schema.parent? (schemas : List Schema) (schema : Schema) : Option Schema :=
  schema.parent.bind (findSchema schemas)

/-- The second schema is the parent of the first one, or an ancestor of that parent. -/
def Extends (schemas : List Schema) : Schema → Schema → Prop :=
  Relation.TransGen fun s t => s.parent? schemas = some t

/-- The schema so many steps up the line. -/
def forebear (schemas : List Schema) (schema : Schema) : Nat → Option Schema
  | 0 => some schema
  | n + 1 => (forebear schemas schema n).bind (Schema.parent? schemas)

/-- A property is the first of its name in a list. -/
structure FirstAt (properties : List Property) (p : Property) (i : Nat) : Prop where
  here : properties[i]? = some p
  first : ∀ j < i, ∀ q, properties[j]? = some q → q.name ≠ p.name

/-- A property is the first of its name in a layer, and no layer nearer by declares the name. -/
structure TakenAt (layer : Nat → Option Schema) (p : Property) (k i : Nat) : Prop where
  declared : ∃ s, layer k = some s ∧ FirstAt s.properties p i
  nearest : ∀ j < k, ∀ s, layer j = some s → ∀ q ∈ s.properties, q.name ≠ p.name

variable {schemas : List Schema} {schema : Schema} {p : Property} {k i : Nat}

/-! ### The line of a schema -/

theorem forebear_add (m n : Nat) :
    forebear schemas schema (m + n) =
      (forebear schemas schema m).bind fun s => forebear schemas s n := by
  induction n with
  | zero => exact (Option.bind_fun_some _).symm
  | succ n ih =>
    rw [← Nat.add_assoc, forebear, ih, Option.bind_assoc]
    rfl

theorem extends_iff {s : Schema} :
    Extends schemas schema s ↔ ∃ n, forebear schemas schema (n + 1) = some s := by
  constructor
  · intro h
    induction h with
    | single h => exact ⟨0, h⟩
    | tail _ h ih =>
      obtain ⟨n, hn⟩ := ih
      exact ⟨n + 1, by rw [forebear, hn]; exact h⟩
  · rintro ⟨n, h⟩
    induction n generalizing s with
    | zero => exact .single h
    | succ n ih =>
      obtain ⟨child, hc, hp⟩ := Option.bind_eq_some_iff.mp h
      exact .tail (ih hc) hp

theorem getElem?_ancestorsFrom (fuel k : Nat) (s : Schema) :
    (ancestorsFrom schemas fuel s.parent)[k]? =
      if k < fuel then forebear schemas s (k + 1) else none := by
  induction fuel generalizing k s with
  | zero => rfl
  | succ fuel ih =>
    have hstep : forebear schemas s (k + 1) =
        (s.parent? schemas).bind fun t => forebear schemas t k := by
      rw [Nat.add_comm, forebear_add]
      rfl
    have hnone (hp : s.parent? schemas = none) :
        (if k < fuel + 1 then forebear schemas s (k + 1) else none) = none := by
      rw [hstep, hp, Option.bind_none, ite_self]
    cases hp : s.parent with
    | none => exact (hnone (by rw [Schema.parent?, hp]; rfl)).symm
    | some name =>
      rw [ancestorsFrom]
      cases hf : findSchema schemas name with
      | none => exact (hnone (by rw [Schema.parent?, hp]; exact hf)).symm
      | some parent =>
        have hparent : s.parent? schemas = some parent := by
          rw [Schema.parent?, hp]
          exact hf
        rw [hstep, hparent, Option.bind_some]
        cases k with
        | zero => rfl
        | succ k => simp [ih k parent]

/-- The ancestor at a position, cut off past the number of schemas; on a cycle that cut ends the
list. -/
theorem getElem?_ancestors (schemas : List Schema) (schema : Schema) (k : Nat) :
    (ancestors schemas schema)[k]? =
      if k ≤ schemas.length then forebear schemas schema (k + 1) else none := by
  rw [ancestors, getElem?_ancestorsFrom]
  simp only [Nat.lt_succ_iff]

/-- One more than the schemas there are, which only a cycle attains. -/
theorem length_ancestors_le (schemas : List Schema) (schema : Schema) :
    (ancestors schemas schema).length ≤ schemas.length + 1 := by
  rw [← List.getElem?_eq_none_iff, getElem?_ancestors, if_neg (Nat.not_succ_le_self _)]

/-! ### Circles -/

/-- After so many steps the line ends, or comes to a schema that was met before. -/
def ComesRound (schemas : List Schema) (schema : Schema) (d : Nat) : Prop :=
  forebear schemas schema (d + 1) = none ∨
    ∃ j < d, forebear schemas schema (j + 1) = forebear schemas schema (d + 1)

/-- Before the line comes round, all schemas on it are new. -/
theorem nodup_take_ancestors {d : Nat} (hd : d ≤ schemas.length + 1)
    (h : ∀ e < d, ¬ ComesRound schemas schema e) :
    ((ancestors schemas schema).take d).Nodup ∧
      ((ancestors schemas schema).take d).length = d := by
  induction d with
  | zero => exact ⟨List.nodup_nil, rfl⟩
  | succ d ih =>
    obtain ⟨hn, hl⟩ := ih (by omega) fun e he => h e (by omega)
    have hnew : ¬ ComesRound schemas schema d := h d (Nat.lt_succ_self d)
    rw [ComesRound, not_or] at hnew
    obtain ⟨s, hs⟩ := Option.ne_none_iff_exists'.mp hnew.1
    have hat : (ancestors schemas schema)[d]? = some s := by
      rw [getElem?_ancestors, if_pos (by omega), hs]
    rw [List.take_add_one, hat, Option.toList_some]
    refine ⟨List.nodup_append.mpr ⟨hn, List.nodup_singleton s, ?_⟩, by simp [hl]⟩
    intro t ht u hu he
    obtain rfl := List.mem_singleton.mp hu
    obtain ⟨j, hj⟩ := List.mem_iff_getElem?.mp ht
    rw [List.getElem?_take] at hj
    split at hj
    · rename_i hjd
      rw [getElem?_ancestors, if_pos (by omega)] at hj
      exact hnew.2 ⟨j, hjd, by rw [hj, hs, he]⟩
    · cases hj

/-- There are not enough schemas for a longer line. -/
theorem exists_comesRound (schemas : List Schema) (schema : Schema) :
    ∃ d ≤ schemas.length, ComesRound schemas schema d := by
  by_contra hnone
  push Not at hnone
  obtain ⟨hn, hl⟩ := nodup_take_ancestors (Nat.le_refl _) fun e (he : e < schemas.length + 1) =>
    hnone e (by omega)
  have hsub : (ancestors schemas schema).take (schemas.length + 1) ⊆ schemas := by
    intro s hs
    exact mem_of_mem_ancestorsFrom (List.mem_of_mem_take hs)
  have hle := hn.length_le_of_subset hsub
  omega

/-- Where the line has come round, there is nobody left to meet. -/
theorem exists_forebear_lt {d : Nat} (h : ComesRound schemas schema d) (n : Nat) {s : Schema}
    (hs : forebear schemas schema (n + 1) = some s) :
    ∃ j < d, forebear schemas schema (j + 1) = some s := by
  induction n using Nat.strongRecOn with
  | _ n ih =>
    by_cases hn : n < d
    · exact ⟨n, hn, hs⟩
    · obtain ⟨r, rfl⟩ := Nat.exists_eq_add_of_le (Nat.le_of_not_lt hn)
      have hsplit (m : Nat) : forebear schemas schema (m + r + 1) =
          (forebear schemas schema (m + 1)).bind fun t => forebear schemas t r := by
        rw [← forebear_add, Nat.add_right_comm]
      rw [hsplit] at hs
      rcases h with hend | ⟨j, hj, hagain⟩
      · rw [hend] at hs
        cases hs
      · -- the steps beyond the first schema met again were taken before
        rw [← hagain, ← hsplit] at hs
        exact ih (j + r) (by omega) hs

/-- The ancestors are all met before any of them is met again. -/
theorem exists_nodup_take_ancestors (schemas : List Schema) (schema : Schema) :
    ∃ d ≤ schemas.length, ((ancestors schemas schema).take d).Nodup ∧
      ∀ s, s ∈ (ancestors schemas schema).take d ↔ Extends schemas schema s := by
  classical
  obtain ⟨e, he, hround⟩ := exists_comesRound schemas schema
  have hex : ∃ d, ComesRound schemas schema d := ⟨e, hround⟩
  have hd : Nat.find hex ≤ schemas.length := Nat.le_trans (Nat.find_min' hex hround) he
  refine ⟨Nat.find hex, hd, (nodup_take_ancestors (by omega) fun _ => Nat.find_min hex).1, ?_⟩
  intro s
  rw [extends_iff, List.mem_iff_getElem?]
  constructor
  · rintro ⟨j, hj⟩
    rw [List.getElem?_take] at hj
    split at hj
    · rw [getElem?_ancestors, if_pos (by omega)] at hj
      exact ⟨j, hj⟩
    · cases hj
  · rintro ⟨n, hn⟩
    obtain ⟨j, hj, hs⟩ := exists_forebear_lt (Nat.find_spec hex) n hn
    exact ⟨j, by rw [List.getElem?_take, if_pos hj, getElem?_ancestors, if_pos (by omega), hs]⟩

/-- The cut loses no ancestor, since on a cycle all were met before it. -/
theorem mem_ancestors_iff {s : Schema} :
    s ∈ ancestors schemas schema ↔ Extends schemas schema s := by
  obtain ⟨d, _, _, hall⟩ := exists_nodup_take_ancestors schemas schema
  constructor
  · intro h
    obtain ⟨j, hj⟩ := List.mem_iff_getElem?.mp h
    rw [getElem?_ancestors] at hj
    split at hj
    · exact extends_iff.mpr ⟨j, hj⟩
    · cases hj
  · exact fun h => List.mem_of_mem_take ((hall s).mpr h)

/-! ### Where a property is taken from -/

theorem firstAt_cons_zero {a : Property} {rest : List Property} :
    FirstAt (a :: rest) p 0 ↔ a = p :=
  ⟨fun h => Option.some.inj h.here, fun h => ⟨congrArg some h, nofun⟩⟩

theorem firstAt_cons_succ {a : Property} {rest : List Property} :
    FirstAt (a :: rest) p (i + 1) ↔ a.name ≠ p.name ∧ FirstAt rest p i := by
  constructor
  · intro h
    exact ⟨h.first 0 (Nat.succ_pos i) a rfl, h.here, fun j hj q hq => h.first (j + 1) (by omega) q hq⟩
  · rintro ⟨hne, hhere, hfirst⟩
    refine ⟨hhere, fun j hj q hq => ?_⟩
    cases j with
    | zero => exact Option.some.inj hq ▸ hne
    | succ j => exact hfirst j (by omega) q hq

theorem find?_name_iff {properties : List Property} :
    properties.find? (·.name == p.name) = some p ↔ ∃ i, FirstAt properties p i := by
  induction properties with
  | nil => exact iff_of_false nofun fun ⟨i, h⟩ => nomatch h.here
  | cons a rest ih =>
    by_cases ha : a.name = p.name
    · rw [List.find?_cons_of_pos (by simpa using ha), Option.some.injEq]
      constructor
      · exact fun h => ⟨0, firstAt_cons_zero.mpr h⟩
      · rintro ⟨i, hi⟩
        cases i with
        | zero => exact firstAt_cons_zero.mp hi
        | succ i => exact absurd ha (firstAt_cons_succ.mp hi).1
    · rw [List.find?_cons_of_neg (by simpa using ha), ih]
      constructor
      · exact fun ⟨i, hi⟩ => ⟨i + 1, firstAt_cons_succ.mpr ⟨ha, hi⟩⟩
      · rintro ⟨i, hi⟩
        cases i with
        | zero => exact absurd (congrArg Property.name (firstAt_cons_zero.mp hi)) ha
        | succ i => exact ⟨i, (firstAt_cons_succ.mp hi).2⟩

theorem takenAt_cons_zero {further : List Schema} :
    TakenAt ((schema :: further)[·]?) p 0 i ↔ FirstAt schema.properties p i := by
  constructor
  · rintro ⟨⟨s, hs, hf⟩, _⟩
    obtain rfl := Option.some.inj hs
    exact hf
  · exact fun h => ⟨⟨schema, rfl, h⟩, nofun⟩

theorem takenAt_cons_succ {further : List Schema} :
    TakenAt ((schema :: further)[·]?) p (k + 1) i ↔
      (∀ q ∈ schema.properties, q.name ≠ p.name) ∧ TakenAt (further[·]?) p k i := by
  constructor
  · intro h
    exact ⟨h.nearest 0 (Nat.succ_pos k) schema rfl, h.declared,
      fun j hj s hs => h.nearest (j + 1) (by omega) s hs⟩
  · rintro ⟨hne, hdeclared, hnearest⟩
    refine ⟨hdeclared, fun j hj s hs => ?_⟩
    cases j with
    | zero => exact Option.some.inj hs ▸ hne
    | succ j => exact hnearest j (by omega) s hs

theorem nearest?_iff {layers : List Schema} :
    nearest? layers p.name = some p ↔ ∃ k i, TakenAt (layers[·]?) p k i := by
  induction layers with
  | nil =>
    refine iff_of_false nofun ?_
    rintro ⟨k, i, ⟨s, hs, _⟩, _⟩
    cases hs
  | cons schema further ih =>
    rw [nearest?_cons]
    constructor
    · intro h
      rcases Option.or_eq_some_iff.mp h with h | ⟨hnone, h⟩
      · obtain ⟨i, hi⟩ := find?_name_iff.mp h
        exact ⟨0, i, takenAt_cons_zero.mpr hi⟩
      · obtain ⟨k, i, hk⟩ := ih.mp h
        refine ⟨k + 1, i, takenAt_cons_succ.mpr ⟨?_, hk⟩⟩
        simpa using hnone
    · rintro ⟨k, i, hk⟩
      cases k with
      | zero => rw [find?_name_iff.mpr ⟨i, takenAt_cons_zero.mp hk⟩, Option.some_or]
      | succ k =>
        obtain ⟨hne, hk⟩ := takenAt_cons_succ.mp hk
        have hnone : schema.properties.find? (·.name == p.name) = none := by simpa using hne
        rw [hnone, Option.none_or]
        exact ih.mpr ⟨k, i, hk⟩

/-- What a schema adds stands in the order in which it is declared. -/
theorem pairwise_unmetProperties (met : List String) (properties : List Property) :
    (unmetProperties met properties).Pairwise fun p q =>
      ∀ i i', FirstAt properties p i → FirstAt properties q i' → i < i' := by
  induction properties generalizing met with
  | nil => exact .nil
  | cons a rest ih =>
    -- names that were met, that of the first property among them, are found further on only
    have hrest (met : List String) (ha : a.name ∈ met) :
        (unmetProperties met rest).Pairwise fun p q =>
          ∀ i i', FirstAt (a :: rest) p i → FirstAt (a :: rest) q i' → i < i' := by
      refine (ih met).imp_of_mem ?_
      intro p q hp hq h i i' hi hi'
      have hpa : a ≠ p := fun he => (mem_unmetProperties_iff.mp hp).1 (he ▸ ha)
      have hqa : a ≠ q := fun he => (mem_unmetProperties_iff.mp hq).1 (he ▸ ha)
      cases i with
      | zero => exact absurd (firstAt_cons_zero.mp hi) hpa
      | succ i =>
        cases i' with
        | zero => exact absurd (firstAt_cons_zero.mp hi') hqa
        | succ i' =>
          have hlt := h i i' (firstAt_cons_succ.mp hi).2 (firstAt_cons_succ.mp hi').2
          omega
    rw [unmetProperties]
    split
    · rename_i ha
      exact hrest met (List.contains_iff_mem.mp ha)
    · refine List.pairwise_cons.mpr ⟨?_, hrest _ List.mem_cons_self⟩
      intro q hq i i' hi hi'
      have hqa : a ≠ q := by
        rintro rfl
        exact (mem_unmetProperties_iff.mp hq).1 List.mem_cons_self
      cases i with
      | succ i => exact absurd rfl (firstAt_cons_succ.mp hi).1
      | zero =>
        cases i' with
        | zero => exact absurd (firstAt_cons_zero.mp hi') hqa
        | succ i' => exact Nat.succ_pos i'

/-- One property comes before another one: it is taken from further away, or earlier in the same
schema. -/
def Precedes (layer : Nat → Option Schema) (p q : Property) : Prop :=
  ∀ k i k' i', TakenAt layer p k i → TakenAt layer q k' i' → k' < k ∨ k' = k ∧ i < i'

/-- By induction on the layers; of two properties, the one declared further away comes first. -/
theorem pairwise_layeredProperties (met : List String) (layers : List Schema) :
    (layeredProperties met layers).Pairwise (Precedes (layers[·]?)) := by
  induction layers generalizing met with
  | nil => exact .nil
  | cons schema further ih =>
    have hown {q : Property} (hq : q ∈ unmetProperties met schema.properties) {k i : Nat}
        (h : TakenAt ((schema :: further)[·]?) q k i) :
        k = 0 ∧ FirstAt schema.properties q i := by
      have hmem := List.mem_of_find?_eq_some (mem_unmetProperties_iff.mp hq).2
      cases k with
      | zero => exact ⟨rfl, takenAt_cons_zero.mp h⟩
      | succ k => exact absurd rfl ((takenAt_cons_succ.mp h).1 q hmem)
    have hfurther {p : Property} (hp : p ∈ layeredProperties
        ((unmetProperties met schema.properties).map (·.name) ++ met) further) {k i : Nat}
        (h : TakenAt ((schema :: further)[·]?) p k i) :
        ∃ k', k = k' + 1 ∧ TakenAt (further[·]?) p k' i := by
      obtain ⟨hmet, _⟩ := mem_layeredProperties_iff.mp hp
      rw [List.mem_append, not_or, mem_names_unmetProperties_iff] at hmet
      cases k with
      | zero =>
        have hmem := List.mem_of_getElem? (takenAt_cons_zero.mp h).here
        exact absurd ⟨hmet.2, p, hmem, rfl⟩ hmet.1
      | succ k => exact ⟨k, rfl, (takenAt_cons_succ.mp h).2⟩
    rw [layeredProperties, List.pairwise_append]
    refine ⟨(ih _).imp_of_mem ?_, (pairwise_unmetProperties met _).imp_of_mem ?_, ?_⟩
    · intro p q hp hq h k i k' i' hk hk'
      obtain ⟨l, rfl, hl⟩ := hfurther hp hk
      obtain ⟨l', rfl, hl'⟩ := hfurther hq hk'
      have hlt := h l i l' i' hl hl'
      omega
    · intro p q hp hq h k i k' i' hk hk'
      obtain ⟨rfl, hi⟩ := hown hp hk
      obtain ⟨rfl, hi'⟩ := hown hq hk'
      exact .inr ⟨rfl, h i i' hi hi'⟩
    · intro p hp q hq k i k' i' hk hk'
      obtain ⟨l, rfl, _⟩ := hfurther hp hk
      obtain ⟨rfl, _⟩ := hown hq hk'
      exact .inl (Nat.succ_pos l)

/-! ### The whole line -/

/-- What is taken from a line that may go on for ever is taken from its beginning. -/
theorem takenAt_ancestors_iff :
    TakenAt ((schema :: ancestors schemas schema)[·]?) p k i ↔
      TakenAt (forebear schemas schema) p k i := by
  have hline {n : Nat} (hn : n ≤ schemas.length + 1) :
      (schema :: ancestors schemas schema)[n]? = forebear schemas schema n := by
    cases n with
    | zero => rfl
    | succ n => rw [List.getElem?_cons_succ, getElem?_ancestors, if_pos (by omega)]
  constructor
  · intro h
    obtain ⟨s, hs, hf⟩ := h.declared
    have hk : k ≤ schemas.length + 1 := by
      have hlt := (List.getElem?_eq_some_iff.mp hs).1
      have hle := length_ancestors_le schemas schema
      rw [List.length_cons] at hlt
      omega
    refine ⟨⟨s, (hline hk).symm.trans hs, hf⟩, fun j hj t ht => ?_⟩
    exact h.nearest j hj t ((hline (by omega)).trans ht)
  · intro h
    obtain ⟨s, hs, hf⟩ := h.declared
    have hk : k ≤ schemas.length + 1 := by
      cases k with
      | zero => omega
      | succ n =>
        -- a schema that is met again has declared the name before
        obtain ⟨d, hd, hround⟩ := exists_comesRound schemas schema
        obtain ⟨j, hj, hs'⟩ := exists_forebear_lt hround n hs
        have hle : ¬ j + 1 < n + 1 := fun hlt =>
          h.nearest (j + 1) hlt s hs' p (List.mem_of_getElem? hf.here) rfl
        omega
    refine ⟨⟨s, (hline hk).trans hs, hf⟩, fun j hj t ht => ?_⟩
    exact h.nearest j hj t ((hline (by omega)).symm.trans ht)

theorem mem_mergedProperties_iff_takenAt :
    p ∈ mergedProperties schemas schema ↔ ∃ k i, TakenAt (forebear schemas schema) p k i := by
  rw [mem_mergedProperties_iff, nearest?_iff]
  simp only [takenAt_ancestors_iff]

/-- No name that is declared anywhere in the lineage is lost. -/
theorem mem_names_mergedProperties_iff {name : String} :
    name ∈ (mergedProperties schemas schema).map (·.name) ↔
      ∃ s, (s = schema ∨ Extends schemas schema s) ∧ name ∈ s.properties.map (·.name) := by
  constructor
  · intro h
    obtain ⟨p, hp, rfl⟩ := List.mem_map.mp h
    obtain ⟨s, hs, hps⟩ := exists_layer_of_mem_mergedProperties hp
    rw [List.mem_cons, mem_ancestors_iff] at hs
    exact ⟨s, hs, List.mem_map_of_mem hps⟩
  · rintro ⟨s, hs, hname⟩
    obtain ⟨q, hq, rfl⟩ := List.mem_map.mp hname
    rw [← mem_ancestors_iff, ← List.mem_cons] at hs
    have hsome : (nearest? (schema :: ancestors schemas schema) q.name).isSome = true :=
      List.find?_isSome.mpr ⟨q, List.mem_flatMap.mpr ⟨s, hs, hq⟩, beq_self_eq_true _⟩
    obtain ⟨p, hp⟩ := Option.isSome_iff_exists.mp hsome
    have hname := List.find?_some (show List.find? (·.name == q.name) _ = some p from hp)
    have hpq : p.name = q.name := eq_of_beq hname
    rw [← hpq] at hp ⊢
    exact List.mem_map_of_mem (mem_mergedProperties_iff.mpr hp)

theorem pairwise_mergedProperties (schemas : List Schema) (schema : Schema) :
    (mergedProperties schemas schema).Pairwise (Precedes (forebear schemas schema)) := by
  refine (pairwise_layeredProperties [] _).imp ?_
  intro p q h k i k' i' hk hk'
  exact h k i k' i' (takenAt_ancestors_iff.mpr hk) (takenAt_ancestors_iff.mpr hk')

/-- The ancestors of a schema are followed step by step, for at most one step more than there are
schemas, and all are met before any is met again. The merged properties have distinct names, those
declared by the schema or an ancestor; each is the first of its name in the nearest schema that
declares it, and they stand in the order of the furthest schema first. -/
theorem ancestors_merged (schemas : List Schema) (schema : Schema) :
    let walk := ancestors schemas schema
    let merged := mergedProperties schemas schema
    (∀ k, walk[k]? = if k ≤ schemas.length then forebear schemas schema (k + 1) else none) ∧
      walk.length ≤ schemas.length + 1 ∧
      (∃ d ≤ schemas.length, (walk.take d).Nodup ∧
        ∀ s, s ∈ walk.take d ↔ Extends schemas schema s) ∧
      (merged.map (·.name)).Nodup ∧
      (∀ name, name ∈ merged.map (·.name) ↔
        ∃ s, (s = schema ∨ Extends schemas schema s) ∧ name ∈ s.properties.map (·.name)) ∧
      (∀ p, p ∈ merged ↔ ∃ k i, TakenAt (forebear schemas schema) p k i) ∧
      merged.Pairwise (Precedes (forebear schemas schema)) :=
  ⟨getElem?_ancestors schemas schema, length_ancestors_le schemas schema,
    exists_nodup_take_ancestors schemas schema, nodup_names_mergedProperties schemas schema,
    fun _ => mem_names_mergedProperties_iff, fun _ => mem_mergedProperties_iff_takenAt,
    pairwise_mergedProperties schemas schema⟩

end Lifecycle
