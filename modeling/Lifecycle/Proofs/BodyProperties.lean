import Lifecycle.Stage
import Lifecycle.Proofs.CreateChoice
import Lifecycle.Proofs.NearestDeclaration

/-!
# What a create sends

The body of a bound create has a schema, and the properties offered in the definition of a resource
are the merged properties of that schema which callers may set, the location and the tags in front.
A body of the resource's own schema makes no difference: the resource is the first that wraps a
schema of that name, hence wraps the schema that the name stands for.
-/
namespace Lifecycle

/-- The order of stages: the location, the tags, then all others as they come. -/
def stageOrder (properties : List Property) : List Property :=
  properties.filter (·.name == "location") ++ properties.filter (·.name == "tags") ++
    properties.filter fun p => !leadingProperties.contains p.name

/-! ### The order of stages -/

/-- Of distinct keys each one is found at most once. -/
theorem filter_key_eq_find? {α : Type} {key : α → String} {entries : List α}
    (hn : (entries.map key).Nodup) (k : String) :
    entries.filter (key · == k) = (entries.find? (key · == k)).toList := by
  induction entries with
  | nil => rfl
  | cons x rest ih =>
    obtain ⟨hx, hrest⟩ := List.nodup_cons.mp hn
    by_cases he : key x = k
    · have hnone : rest.filter (key · == k) = [] := by
        rw [List.filter_eq_nil_iff]
        intro y hy h
        exact hx (List.mem_map.mpr ⟨y, hy, (eq_of_beq h).trans he.symm⟩)
      rw [List.filter_cons_of_pos (by simpa using he), List.find?_cons_of_pos (by simpa using he),
        hnone]
      rfl
    · rw [List.filter_cons_of_neg (by simpa using he), List.find?_cons_of_neg (by simpa using he),
        ih hrest]

theorem count_filter_of_nodup {α : Type} [DecidableEq α] {entries : List α} (hn : entries.Nodup)
    (keep : α → Bool) (x : α) :
    (entries.filter keep).count x = if x ∈ entries ∧ keep x = true then 1 else 0 := by
  rw [(hn.filter keep).count]
  exact if_congr List.mem_filter rfl rfl

section

variable {properties : List Property}

/-- Moving the leading properties by name agrees with the order by class if names differ. -/
theorem leadingFirst_eq_stageOrder (hn : (properties.map (·.name)).Nodup) :
    leadingFirst properties = stageOrder properties := by
  have hleading (name : String) (names : List String) (find : String → Option Property) :
      (name :: names).filterMap find = (find name).toList ++ names.filterMap find := by
    rw [List.filterMap_cons]
    cases find name <;> rfl
  rw [leadingFirst, stageOrder, filter_key_eq_find? hn, filter_key_eq_find? hn,
    leadingProperties, hleading, hleading, List.filterMap_nil, List.append_nil]

theorem filter_stageOrder (keep : Property → Bool) :
    (stageOrder properties).filter keep = stageOrder (properties.filter keep) := by
  unfold stageOrder
  simp only [List.filter_append, List.filter_filter, Bool.and_comm]

/-- Stages take every property once; their order alone differs. -/
theorem perm_stageOrder (properties : List Property) :
    (stageOrder properties).Perm properties := by
  let rest := properties.filter fun p => !(p.name == "location")
  have htags : properties.filter (·.name == "tags") = rest.filter (·.name == "tags") := by
    rw [List.filter_filter]
    apply List.filter_congr
    intro p _
    by_cases h : p.name = "tags"
    · simp [h]
    · simp [h]
  have hothers : (properties.filter fun p => !leadingProperties.contains p.name) =
      rest.filter fun p => !(p.name == "tags") := by
    rw [List.filter_filter]
    apply List.filter_congr
    intro p _
    rw [leadingProperties, List.contains_cons, List.contains_cons, List.contains_nil,
      Bool.or_false, Bool.not_or, Bool.and_comm]
  rw [stageOrder, htags, hothers, List.append_assoc]
  exact ((List.filter_append_perm _ rest).append_left _).trans (List.filter_append_perm _ _)

/-- A location comes first. -/
theorem any_head?_stageOrder (properties : List Property) :
    (stageOrder properties).head?.any (·.name == "location") =
      properties.any (·.name == "location") := by
  cases hl : properties.filter (·.name == "location") with
  | nil =>
    have hno := List.filter_eq_nil_iff.mp hl
    have hany : properties.any (·.name == "location") = false :=
      List.any_eq_false.mpr hno
    rw [hany, Bool.eq_false_iff, Ne, Option.any_eq_true]
    rintro ⟨p, hp, he⟩
    exact hno p ((perm_stageOrder properties).mem_iff.mp (List.mem_of_head? hp)) he
  | cons p rest =>
    have hp : p ∈ properties.filter (·.name == "location") := hl ▸ List.mem_cons_self
    obtain ⟨hmem, he⟩ := List.mem_filter.mp hp
    rw [stageOrder, hl, List.cons_append, List.cons_append, List.head?_cons, Option.any_some, he]
    exact (List.any_eq_true.mpr ⟨p, hmem, he⟩).symm

end

/-! ### The schema of the body -/

namespace Assembly

variable (a : Assembly) (service : Service) {i : Nat} {r : Resource} {create : Binding}

/-- A create that is bound comes from an eligible method, whose body it has. -/
theorem exists_eligible_of_create (hr : (a.client service).value.resources[i]? = some r)
    (hc : r.create = some create) :
    ∃ m, (a.unclassified service).Eligible i r.outline r.category m ∧
      create.bodySchema = m.bodyType? := by
  let start := a.unclassified service
  have hbound : r.binding? .create = some create := hc
  have hg := a.getElem?_client service (lite_of_binding? hr hbound) i
  rw [hr, Option.map_some] at hg
  obtain ⟨r₀, hr₀, he⟩ := Option.map_eq_some_iff.mp hg.symm
  have ho : r₀.outline = r₀ := outline_of_mem_unclassified (List.mem_of_getElem? hr₀)
  rw [Client.findSome?_trials (fun _ => name_of_mem_unclassified) hr₀] at he
  cases hchosen : (start.triedIn a.settings.associations i).findSome? (start.choiceIn i r₀) with
  | none =>
    rw [hchosen] at he
    have hcreate := congrArg Resource.create he
    change r₀.create = r.create at hcreate
    rw [← ho, hc] at hcreate
    cases hcreate
  | some choice =>
    rw [hchosen] at he
    have hout := congrArg Resource.outline he
    have hcategory := congrArg Resource.category he
    have hcreate := congrArg Resource.create he
    change r₀.outline = r.outline at hout
    change choice.category = r.category at hcategory
    change some (start.referred (Client.Choice.creation i choice).binding) = r.create at hcreate
    obtain ⟨collection, _, hin⟩ := List.exists_of_findSome?_eq_some hchosen
    obtain ⟨category, _, hfound⟩ := List.exists_of_findSome?_eq_some hin
    obtain ⟨m, hm, rfl⟩ := Option.map_eq_some_iff.mp hfound
    have heligible := List.find?_some hm
    refine ⟨m, ?_, ?_⟩
    · rw [← hout, ho, ← hcategory]
      exact of_decide_eq_true heligible
    · rw [hc] at hcreate
      obtain rfl := Option.some.inj hcreate
      rfl

/-- Of the schemas that are called like that of a created resource, the resource wraps the first. -/
theorem findSchema_of_create (hr : (a.client service).value.resources[i]? = some r)
    (hc : r.create = some create) :
    findSchema service.schemas r.schema.name = some r.schema := by
  let wrapped := (a.meetSchemas service).wrapped
  obtain ⟨m, heligible, _⟩ := a.exists_eligible_of_create service hr hc
  have hi : (a.unclassified service).resources[i]? = some r.outline := by
    rw [← a.outline_client service, Client.getElem?_outline, hr, Option.map_some]
  let schemas := service.schemas.filter fun s => wrapped.contains s.name
  change (schemas.map (Resource.ofSchema service.schemas))[i]? = some r.outline at hi
  rw [List.getElem?_map] at hi
  obtain ⟨schema, hschema, he⟩ := Option.map_eq_some_iff.mp hi
  have hs := congrArg Resource.schema he
  change schema = r.schema at hs
  subst hs
  obtain ⟨hil, hget⟩ := List.getElem?_eq_some_iff.mp hschema
  have hfirst : schemas.find? (·.name == r.schema.name) = some r.schema := by
    rw [List.find?_eq_some_iff_getElem]
    refine ⟨beq_self_eq_true _, i, hil, hget, ?_⟩
    intro j hj
    have hother : Resource.ofSchema service.schemas schemas[j] ∈
        (a.unclassified service).resources.take i := by
      refine Client.mem_take_resources.mpr ⟨j, hj, ?_⟩
      change (schemas.map (Resource.ofSchema service.schemas))[j]? = _
      rw [List.getElem?_map, List.getElem?_eq_getElem, Option.map_some]
    have hne : schemas[j].name ≠ r.schema.name := heligible.first _ hother
    simpa using hne
  -- all schemas of that name are wrapped
  have hwrapped : wrapped.contains r.schema.name = true :=
    (List.mem_filter.mp (List.mem_of_getElem? hschema)).2
  have hsame : (fun s : Schema => decide (wrapped.contains s.name = true ∧
      (s.name == r.schema.name) = true)) = fun s => s.name == r.schema.name := by
    funext s
    by_cases hn : s.name = r.schema.name
    · simp only [hn, hwrapped, beq_self_eq_true, and_self, decide_true]
    · simp only [beq_eq_false_iff_ne.mpr hn, Bool.false_eq_true, and_false, decide_false]
  rw [List.find?_filter, hsame] at hfirst
  exact hfirst

/-- Resources keep the merged properties of their schema through the whole classification. -/
theorem properties_client (hr : (a.client service).value.resources[i]? = some r) :
    r.properties = mergedProperties service.schemas r.schema := by
  have hi : r.outline ∈ (a.unclassified service).resources := by
    rw [← a.outline_client service]
    exact List.mem_map_of_mem (List.mem_of_getElem? hr)
  obtain ⟨schema, _, he⟩ := List.mem_map.mp hi
  have hs := congrArg Resource.schema he
  have hp := congrArg Resource.properties he
  change schema = r.schema at hs
  change mergedProperties service.schemas schema = r.properties at hp
  rw [← hp, hs]

/-- The properties of the body of a create are those of the schema of the body. -/
theorem bodyProperties_create (hr : (a.client service).value.resources[i]? = some r)
    (hc : r.create = some create) :
    let client := (a.client service).value
    ∃ schema, create.bodySchema = some schema.name ∧ client.schema? schema.name = some schema ∧
      client.bodyProperties r create = mergedProperties client.schemas schema := by
  intro client
  have hschemas : client.schemas = service.schemas :=
    Client.schemas_eq_of_outline ((a.outline_client service).trans
      (a.outline_unclassified service).symm)
  obtain ⟨m, heligible, hbody⟩ := a.exists_eligible_of_create service hr hc
  have hknown := Client.bodySchema_isSome_iff.mpr heligible.known
  obtain ⟨schema, hs⟩ := Option.isSome_iff_exists.mp hknown
  have hname := hbody.trans (Client.name_of_bodySchema hs)
  have hfound : client.schema? schema.name = some schema := by
    rw [← hbody, hname, Option.bind_some] at hs
    rw [Client.schema?, hschemas]
    exact hs
  refine ⟨schema, hname, hfound, ?_⟩
  unfold Client.bodyProperties
  rw [hname]
  dsimp only
  split
  · rename_i hown
    have hown := eq_of_beq hown
    rw [Client.schema?, hschemas, hown, a.findSchema_of_create service hr hc] at hfound
    obtain rfl := Option.some.inj hfound
    rw [hschemas]
    exact a.properties_client service hr
  · rw [hfound]

end Assembly

/-- What can be set, where the body has the properties of a schema. -/
theorem Client.settableProperties_eq {client : Client} {r : Resource} {create : Binding}
    {schema : Schema}
    (h : client.bodyProperties r create = mergedProperties client.schemas schema) :
    client.settableProperties r create =
      stageOrder ((mergedProperties client.schemas schema).filter (·.settable)) := by
  unfold settableProperties
  rw [h, leadingFirst_eq_stageOrder (nodup_names_mergedProperties _ _)]
  exact filter_stageOrder Property.settable

end Lifecycle
