import Mathlib.Data.List.Nodup
import Lifecycle.Inheritance

/-!
# Which declaration of a property counts

The merged properties of a schema have distinct names. Of each name declared by the schema or an
ancestor there is one property, the first that is met when the schema and its ancestors are gone
through, nearest first.
-/
namespace Lifecycle

/-- The first property of a name in some schemas, those in front being the nearest. -/
def nearest? (layers : List Schema) (name : String) : Option Property :=
  (layers.flatMap (·.properties)).find? (·.name == name)

theorem mem_unmetProperties_iff {met : List String} {properties : List Property} {p : Property} :
    p ∈ unmetProperties met properties ↔
      p.name ∉ met ∧ properties.find? (·.name == p.name) = some p := by
  induction properties generalizing met with
  | nil => simp [unmetProperties]
  | cons q rest ih =>
    rw [unmetProperties]
    by_cases hq : q.name ∈ met
    · rw [if_pos (List.contains_iff_mem.mpr hq), ih]
      apply and_congr_right
      intro hp
      have hne : q.name ≠ p.name := fun he => hp (he ▸ hq)
      rw [List.find?_cons_of_neg (by simpa using hne)]
    · rw [if_neg (by simpa using hq), List.mem_cons, ih, List.mem_cons]
      by_cases he : q.name = p.name
      · rw [List.find?_cons_of_pos (by simpa using he)]
        constructor
        · rintro (rfl | ⟨hn, _⟩)
          · exact ⟨hq, rfl⟩
          · exact absurd (.inl he.symm) hn
        · rintro ⟨_, hs⟩
          exact .inl (Option.some.inj hs).symm
      · rw [List.find?_cons_of_neg (by simpa using he)]
        have hpq : p ≠ q := by
          rintro rfl
          exact he rfl
        have hname : p.name ≠ q.name := fun h => he h.symm
        simp only [hpq, hname, false_or]

/-- No name is lost that has not been met. -/
theorem mem_names_unmetProperties_iff {met : List String} {properties : List Property}
    {name : String} :
    name ∈ (unmetProperties met properties).map (·.name) ↔
      name ∉ met ∧ ∃ p ∈ properties, p.name = name := by
  constructor
  · intro h
    obtain ⟨p, hp, rfl⟩ := List.mem_map.mp h
    obtain ⟨hn, hf⟩ := mem_unmetProperties_iff.mp hp
    exact ⟨hn, p, List.mem_of_find?_eq_some hf, rfl⟩
  · rintro ⟨hn, p, hp, he⟩
    have hs : (properties.find? (·.name == name)).isSome = true :=
      List.find?_isSome.mpr ⟨p, hp, beq_iff_eq.mpr he⟩
    obtain ⟨q, hq⟩ := Option.isSome_iff_exists.mp hs
    have hname := List.find?_some hq
    obtain rfl : q.name = name := eq_of_beq hname
    exact List.mem_map_of_mem (mem_unmetProperties_iff.mpr ⟨hn, hq⟩)

theorem nodup_names_unmetProperties (met : List String) (properties : List Property) :
    ((unmetProperties met properties).map (·.name)).Nodup := by
  induction properties generalizing met with
  | nil => exact List.nodup_nil
  | cons q rest ih =>
    rw [unmetProperties]
    split
    · exact ih met
    · rw [List.map_cons, List.nodup_cons]
      refine ⟨?_, ih _⟩
      intro h
      exact (mem_names_unmetProperties_iff.mp h).1 List.mem_cons_self

theorem nearest?_cons (schema : Schema) (further : List Schema) (name : String) :
    nearest? (schema :: further) name =
      (schema.properties.find? (·.name == name)).or (nearest? further name) := by
  rw [nearest?, List.flatMap_cons, List.find?_append, nearest?]

/-- Of each name the declaration in the nearest layer is kept. -/
theorem mem_layeredProperties_iff {met : List String} {layers : List Schema} {p : Property} :
    p ∈ layeredProperties met layers ↔ p.name ∉ met ∧ nearest? layers p.name = some p := by
  induction layers generalizing met with
  | nil => simp [layeredProperties, nearest?]
  | cons schema further ih =>
    have hown : (∃ q ∈ schema.properties, q.name = p.name) ↔
        (schema.properties.find? (·.name == p.name)).isSome = true := by
      simp only [List.find?_isSome, beq_iff_eq]
    rw [layeredProperties, List.mem_append, ih, mem_unmetProperties_iff, List.mem_append, not_or,
      mem_names_unmetProperties_iff, hown, nearest?_cons]
    -- what the nearest schema declares is hidden from the others
    cases schema.properties.find? (·.name == p.name) with
    | none => simp
    | some q => simp

theorem nodup_names_layeredProperties (met : List String) (layers : List Schema) :
    ((layeredProperties met layers).map (·.name)).Nodup := by
  induction layers generalizing met with
  | nil => exact List.nodup_nil
  | cons schema further ih =>
    rw [layeredProperties, List.map_append, List.nodup_append']
    refine ⟨ih _, nodup_names_unmetProperties _ _, ?_⟩
    rw [List.disjoint_left]
    intro name h hown
    obtain ⟨p, hp, rfl⟩ := List.mem_map.mp h
    exact (mem_layeredProperties_iff.mp hp).1 (List.mem_append_left met hown)

variable {schemas : List Schema} {schema : Schema} {p : Property}

/-- The merged properties are the nearest ones of their names. -/
theorem mem_mergedProperties_iff :
    p ∈ mergedProperties schemas schema ↔
      nearest? (schema :: ancestors schemas schema) p.name = some p := by
  rw [mergedProperties, mem_layeredProperties_iff]
  exact and_iff_right List.not_mem_nil

/-- Merged properties never share a name, even if one schema declares it twice. -/
theorem nodup_names_mergedProperties (schemas : List Schema) (schema : Schema) :
    ((mergedProperties schemas schema).map (·.name)).Nodup :=
  nodup_names_layeredProperties _ _

theorem exists_layer_of_mem_mergedProperties (h : p ∈ mergedProperties schemas schema) :
    ∃ s ∈ schema :: ancestors schemas schema, p ∈ s.properties :=
  List.mem_flatMap.mp (List.mem_of_find?_eq_some (mem_mergedProperties_iff.mp h))

theorem mem_of_mem_ancestorsFrom {fuel : Nat} {parent : Option String}
    (h : schema ∈ ancestorsFrom schemas fuel parent) : schema ∈ schemas := by
  fun_induction ancestorsFrom schemas fuel parent with
  | case1 => cases h
  | case2 => cases h
  | case3 => cases h
  | case4 fuel name found hf ih =>
    rcases List.mem_cons.mp h with rfl | h
    · exact List.mem_of_find?_eq_some hf
    · exact ih h

/-- The ancestors of a schema are schemas of the service, so its properties are declared there. -/
theorem exists_schema_of_mem_mergedProperties (hs : schema ∈ schemas)
    (h : p ∈ mergedProperties schemas schema) : ∃ s ∈ schemas, p ∈ s.properties := by
  obtain ⟨s, hmem, hp⟩ := exists_layer_of_mem_mergedProperties h
  rcases List.mem_cons.mp hmem with rfl | hmem
  · exact ⟨s, hs, hp⟩
  · exact ⟨s, mem_of_mem_ancestorsFrom hmem, hp⟩

end Lifecycle
