import Lifecycle.Proofs.Sequence

/-!
# Which create a resource gets

The create of a resource can be told from the resource alone: `Eligible` says which methods come
into question, and the first eligible one counts, by collection, then by category, then by the order
of methods. Other resources play no part, and a method whose body has no schema hides no later one.
-/
namespace Lifecycle

open Indexed

namespace Client

/-- What it takes for a method to be the create of a resource in a category. -/
structure Eligible (client : Client) (i : Nat) (r : Resource) (category : Category) (m : Method) :
    Prop where
  puts : m.verb = .put
  notUpdate : ¬ (mentions "update" m.name = true ∧ mentions "create" m.name = false)
  sends : ∃ p ∈ m.operation.parameters, p.isBody = true
  returns : m.returns = .value r.schema.name
  /-- no resource before it wraps a schema of the same name -/
  first : ∀ other ∈ client.resources.take i, other.schema.name ≠ r.schema.name
  underived : r.schema.derived = []
  identity : ∀ name ∈ ["id", "name", "type"], ∃ p ∈ r.properties, p.name = name
  named : m.url.endsInParameter = true
  fits : category.fits m.url = true
  known : ∃ p ∈ m.operation.bodyParameter?, ∃ s ∈ client.schemas, s.name = p.type.display

instance (client : Client) (i : Nat) (r : Resource) (category : Category) (m : Method) :
    Decidable (client.Eligible i r category m) :=
  decidable_of_iff
    (m.verb = .put ∧ ¬ (mentions "update" m.name = true ∧ mentions "create" m.name = false) ∧
      (∃ p ∈ m.operation.parameters, p.isBody = true) ∧ m.returns = .value r.schema.name ∧
      (∀ other ∈ client.resources.take i, other.schema.name ≠ r.schema.name) ∧
      r.schema.derived = [] ∧
      (∀ name ∈ ["id", "name", "type"], ∃ p ∈ r.properties, p.name = name) ∧
      m.url.endsInParameter = true ∧ category.fits m.url = true ∧
      ∃ p ∈ m.operation.bodyParameter?, ∃ s ∈ client.schemas, s.name = p.type.display)
    ⟨fun ⟨h₁, h₂, h₃, h₄, h₅, h₆, h₇, h₈, h₉, h₁₀⟩ => ⟨h₁, h₂, h₃, h₄, h₅, h₆, h₇, h₈, h₉, h₁₀⟩,
      fun ⟨h₁, h₂, h₃, h₄, h₅, h₆, h₇, h₈, h₉, h₁₀⟩ => ⟨h₁, h₂, h₃, h₄, h₅, h₆, h₇, h₈, h₉, h₁₀⟩⟩

/-- A method of a collection, and the category that its resource gets. -/
structure Choice where
  collection : Nat
  category : Category
  method : Method

/-- The first eligible method of a collection, by category first. -/
def choiceIn (client : Client) (i : Nat) (r : Resource) (collection : Nat) : Option Choice :=
  Category.priority.findSome? fun category =>
    ((client.methods collection).find? fun m => decide (client.Eligible i r category m)).map
      (⟨collection, category, ·⟩)

/-- The collection that an association names. -/
def collectionOf? (client : Client) (a : Association) : Option Nat :=
  a.collection.bind client.collectionNamed?

/-- The collections in which a resource is tried: those of its associations, then all. -/
def triedIn (client : Client) (associations : List Association) (i : Nat) : List Nat :=
  (associations.filter fun a => client.resourceNamed? a.resource == some i).filterMap
      client.collectionOf? ++
    client.collectionPositions

/-- The create that a choice amounts to. -/
def Choice.creation (i : Nat) (choice : Choice) : Creation :=
  { category := choice.category
    binding :=
      { resource := i
        collection := choice.collection
        url := choice.method.url
        method := choice.method.name
        bodySchema := choice.method.bodyType?
        references := [] } }

theorem putsResource_iff {m : Method} :
    putsResource m = true ↔ m.verb = .put ∧
      ¬ (mentions "update" m.name = true ∧ mentions "create" m.name = false) ∧
      ∃ p ∈ m.operation.parameters, p.isBody = true := by
  have hb : m.operation.bodyParameter?.isSome = true ↔
      ∃ p ∈ m.operation.parameters, p.isBody = true := List.find?_isSome
  rw [← hb, putsResource, Phase.accepts, speaksOfUpdate, mentionsOnly]
  cases mentions "update" m.name <;> cases mentions "create" m.name <;> simp

theorem isCreatable_iff {r : Resource} :
    r.isCreatable = true ↔ r.schema.derived = [] ∧
      ∀ name ∈ ["id", "name", "type"], ∃ p ∈ r.properties, p.name = name := by
  simp [Resource.isCreatable, identityProperties, Resource.hasProperty_iff]

/-- The schema of a body has the name that the type of the body displays. -/
theorem name_of_bodySchema {client : Client} {m : Method} {body : Schema}
    (h : m.bodyType?.bind client.schema? = some body) : m.bodyType? = some body.name := by
  obtain ⟨type, ht, hs⟩ := Option.bind_eq_some_iff.mp h
  have hn := List.find?_some (show client.schemas.find? (·.name == type) = some body from hs)
  rw [ht, eq_of_beq hn]

theorem bodySchema_isSome_iff {client : Client} {m : Method} :
    (m.bodyType?.bind client.schema?).isSome = true ↔
      ∃ p ∈ m.operation.bodyParameter?, ∃ s ∈ client.schemas, s.name = p.type.display := by
  unfold Method.bodyType?
  cases m.operation.bodyParameter? with
  | none => simp
  | some p => simp [schema?, findSchema, List.find?_isSome]

/-- Whether some candidates lead to a resource exactly from its own schema. -/
def Leads (client : Client) (candidates : List Nat) (i : Nat) (r : Resource) : Prop :=
  ∀ schema, client.wrapperOf? candidates schema = some i ↔
    schema = r.schema.name ∧ ∀ other ∈ client.resources.take i, other.schema.name ≠ r.schema.name

/-- A method offers a create for a resource if it is eligible for it. -/
theorem offer?_eq_some_iff_eligible {client : Client} {candidates : List Nat} {i : Nat}
    {r : Resource} (hr : client.resources[i]? = some r) (hl : client.Leads candidates i r)
    (collection : Nat) (category : Category) (m : Method) (f : Creation) :
    client.offer? collection candidates category m = some f ∧ f.resource = i ↔
      client.Eligible i r category m ∧ f = Choice.creation i ⟨collection, category, m⟩ := by
  rw [offer?_eq_some_iff]
  constructor
  · rintro ⟨⟨j, ht, body, hb, rfl⟩, hj⟩
    obtain rfl : j = i := hj
    obtain ⟨hp, schema, hs, hw, r', hr', hc, hn, hf⟩ := target?_eq_some_iff.mp ht
    obtain rfl : r = r' := Option.some.inj (hr.symm.trans hr')
    obtain ⟨rfl, hfirst⟩ := (hl schema).mp hw
    obtain ⟨hv, hu, hsend⟩ := putsResource_iff.mp hp
    obtain ⟨hd, hi⟩ := isCreatable_iff.mp hc
    have hk := bodySchema_isSome_iff.mp (by rw [hb]; rfl)
    refine ⟨⟨hv, hu, hsend, Returns.value?_eq_some_iff.mp hs, hfirst, hd, hi, hn, hf, hk⟩, ?_⟩
    rw [Choice.creation, name_of_bodySchema hb]
  · rintro ⟨he, rfl⟩
    obtain ⟨body, hb⟩ := Option.isSome_iff_exists.mp (bodySchema_isSome_iff.mpr he.known)
    refine ⟨⟨i, target?_eq_some_iff.mpr ⟨putsResource_iff.mpr ⟨he.puts, he.notUpdate, he.sends⟩,
      r.schema.name, Returns.value?_eq_some_iff.mpr he.returns, (hl _).mpr ⟨rfl, he.first⟩, r, hr,
      isCreatable_iff.mpr ⟨he.underived, he.identity⟩, he.named, he.fits⟩, body, hb, ?_⟩, rfl⟩
    rw [Choice.creation, name_of_bodySchema hb]

/-- In a collection, the first eligible method is what is offered. -/
theorem offerFor_eq_choiceIn {client : Client} {candidates : List Nat} {i : Nat} {r : Resource}
    (hr : client.resources[i]? = some r) (hl : client.Leads candidates i r) (collection : Nat) :
    client.offerFor i ⟨collection, candidates⟩ =
      (client.choiceIn i r collection).map (Choice.creation i) := by
  unfold offerFor offers choiceIn
  rw [List.find?_flatMap, List.map_findSome?]
  congr 1
  funext category
  have hp : (fun m => (client.offer? collection candidates category m).any (·.resource == i)) =
      fun m => decide (client.Eligible i r category m) := by
    funext m
    rw [Bool.eq_iff_iff, decide_eq_true_iff, Option.any_eq_true]
    constructor
    · rintro ⟨f, hf, hi⟩
      exact ((offer?_eq_some_iff_eligible hr hl _ _ _ _).mp ⟨hf, eq_of_beq hi⟩).1
    · intro he
      have ho := (offer?_eq_some_iff_eligible hr hl collection category m _).mpr ⟨he, rfl⟩
      exact ⟨_, ho.1, beq_iff_eq.mpr ho.2⟩
  rw [Function.comp_apply, List.find?_filterMap, Option.map_map, hp]
  cases hm : (client.methods collection).find? fun m =>
      decide (client.Eligible i r category m) with
  | none => rfl
  | some m =>
    have hd := List.find?_some hm
    have he : client.Eligible i r category m := of_decide_eq_true hd
    exact ((offer?_eq_some_iff_eligible hr hl collection category m _).mpr ⟨he, rfl⟩).1

/-! ### Which candidates lead to a resource -/

/-- Whether the resource at a position wraps a schema. -/
def wraps (client : Client) (schema : String) (i : Nat) : Bool :=
  client.resources[i]?.any (·.schema.name == schema)

theorem wrapperOf?_eq (client : Client) (candidates : List Nat) (schema : String) :
    client.wrapperOf? candidates schema = candidates.find? (client.wraps schema) := by
  unfold wrapperOf? wraps
  congr 1
  funext i
  cases client.resources[i]? <;> rfl

theorem wraps_iff {client : Client} {i : Nat} {r : Resource} (hr : client.resources[i]? = some r)
    (schema : String) : client.wraps schema i = true ↔ schema = r.schema.name := by
  rw [wraps, hr, Option.any_some, beq_iff_eq, eq_comm]

/-- A trial of other resources offers nothing for a resource. -/
theorem offerFor_eq_none {client : Client} {trial : Trial} {i : Nat} (h : i ∉ trial.candidates) :
    client.offerFor i trial = none := by
  unfold offerFor
  rw [List.find?_eq_none]
  intro f hf hi
  obtain ⟨category, _, hc⟩ := List.mem_flatMap.mp hf
  obtain ⟨m, _, ho⟩ := List.mem_filterMap.mp hc
  obtain ⟨j, ht, _, _, rfl⟩ := offer?_eq_some_iff.mp ho
  obtain ⟨_, _, _, hw, _⟩ := target?_eq_some_iff.mp ht
  obtain rfl : j = i := eq_of_beq hi
  rw [wrapperOf?_eq] at hw
  exact h (List.mem_of_find?_eq_some hw)

theorem mem_take_resources {client : Client} {i : Nat} {r : Resource} :
    r ∈ client.resources.take i ↔ ∃ j < i, client.resources[j]? = some r := by
  rw [List.mem_iff_getElem?]
  constructor
  · rintro ⟨j, hj⟩
    rw [List.getElem?_take] at hj
    split at hj
    · exact ⟨j, ‹_›, hj⟩
    · cases hj
  · rintro ⟨j, hji, hj⟩
    exact ⟨j, by rw [List.getElem?_take_of_lt hji, hj]⟩

theorem leads_resourcePositions {client : Client} {i : Nat} {r : Resource}
    (hr : client.resources[i]? = some r) : client.Leads client.resourcePositions i r := by
  intro schema
  rw [wrapperOf?_eq, resourcePositions, List.find?_range_eq_some, wraps_iff hr]
  constructor
  · rintro ⟨rfl, -, hb⟩
    refine ⟨rfl, ?_⟩
    intro other ho he
    obtain ⟨j, hj, hother⟩ := mem_take_resources.mp ho
    have hn := hb j hj
    rw [(wraps_iff hother _).mpr he.symm] at hn
    cases hn
  · rintro ⟨rfl, hfirst⟩
    refine ⟨rfl, List.mem_range.mpr (List.getElem?_eq_some_iff.mp hr).1, ?_⟩
    intro j hj
    cases ho : client.resources[j]? with
    | none => rw [wraps, ho]; rfl
    | some other =>
      have hn := hfirst other (mem_take_resources.mpr ⟨j, hj, ho⟩)
      rw [Bool.not_eq_true', Bool.eq_false_iff, Ne, wraps_iff ho]
      exact hn.symm

/-- The first resource of a name is the first that wraps its schema, since the name of a resource
comes from the name of its schema. -/
theorem leads_of_resourceNamed {client : Client} {name : String} {i : Nat} {r : Resource}
    (hn : ∀ r ∈ client.resources, r.name = resourceName r.schema.name)
    (h : client.resourceNamed? name = some i) (hr : client.resources[i]? = some r) :
    client.Leads [i] i r := by
  intro schema
  obtain ⟨hi, hname, hbefore⟩ := List.findIdx?_eq_some_iff_getElem.mp h
  have hrn : r.name = name := by
    have he := List.getElem?_eq_getElem hi
    rw [hr] at he
    rw [Option.some.inj he]
    exact eq_of_beq hname
  -- an earlier resource of the same schema would have the same name
  have hfirst : ∀ other ∈ client.resources.take i, other.schema.name ≠ r.schema.name := by
    intro other ho he
    obtain ⟨j, hj, hother⟩ := mem_take_resources.mp ho
    obtain ⟨hjl, rfl⟩ := List.getElem?_eq_some_iff.mp hother
    apply hbefore j hj
    rw [beq_iff_eq, ← hrn, hn r (List.mem_of_getElem? hr), ← he]
    exact hn _ (List.getElem_mem hjl)
  have hw : client.wrapperOf? [i] schema = some i ↔ schema = r.schema.name := by
    rw [wrapperOf?_eq, List.find?_singleton, ← wraps_iff hr schema]
    cases client.wraps schema i <;> simp
  rw [hw]
  exact ⟨fun e => ⟨e, hfirst⟩, fun e => e.1⟩

/-! ### All trials of a resource -/

theorem trialOf?_eq (client : Client) (association : Association) :
    client.trialOf? association = (client.resourceNamed? association.resource).bind fun i =>
      (client.collectionOf? association).map (⟨·, [i]⟩) := by
  unfold trialOf? collectionOf?
  cases association.collection with
  | none => cases client.resourceNamed? association.resource <;> rfl
  | some name =>
    cases client.resourceNamed? association.resource with
    | none => rfl
    | some i => cases hc : client.collectionNamed? name <;> simp [hc]

/-- Among associations, those of other resources offer nothing. -/
theorem findSome?_associations {client : Client} {i : Nat} {r : Resource}
    (hn : ∀ r ∈ client.resources, r.name = resourceName r.schema.name)
    (hr : client.resources[i]? = some r) (associations : List Association) :
    (associations.filterMap client.trialOf?).findSome? (client.offerFor i) =
      (((associations.filter fun a => client.resourceNamed? a.resource == some i).filterMap
        client.collectionOf?).findSome? (client.choiceIn i r)).map (Choice.creation i) := by
  induction associations with
  | nil => rfl
  | cons a rest ih =>
    have ht := client.trialOf?_eq a
    by_cases hi : client.resourceNamed? a.resource = some i
    · rw [List.filter_cons_of_pos (by rw [hi]; exact beq_self_eq_true _)]
      rw [hi, Option.bind_some] at ht
      cases hc : client.collectionOf? a with
      | none =>
        rw [hc, Option.map_none] at ht
        rw [List.filterMap_cons_none ht, List.filterMap_cons_none hc, ih]
      | some collection =>
        rw [hc, Option.map_some] at ht
        have ho := offerFor_eq_choiceIn hr (leads_of_resourceNamed hn hi hr) collection
        rw [List.filterMap_cons_some ht, List.filterMap_cons_some hc, List.findSome?_cons,
          List.findSome?_cons, ho, ih]
        cases client.choiceIn i r collection <;> rfl
    · rw [List.filter_cons_of_neg (by rw [beq_iff_eq]; exact hi), ← ih]
      cases hb : client.trialOf? a with
      | none => rw [List.filterMap_cons_none hb]
      | some trial =>
        -- the trial is of the one resource of another name
        have hnone : client.offerFor i trial = none := by
          apply offerFor_eq_none
          intro hm
          rw [hb] at ht
          obtain ⟨j, hj, hc⟩ := Option.bind_eq_some_iff.mp ht.symm
          obtain ⟨collection, _, rfl⟩ := Option.map_eq_some_iff.mp hc
          obtain rfl : i = j := List.mem_singleton.mp hm
          exact hi hj
        rw [List.filterMap_cons_some hb, List.findSome?_cons, hnone]

/-- Going through all trials of a client finds the first choice for a resource. -/
theorem findSome?_trials {client : Client} {i : Nat} {r : Resource}
    (hn : ∀ r ∈ client.resources, r.name = resourceName r.schema.name)
    (hr : client.resources[i]? = some r) (associations : List Association) :
    (client.trials associations).findSome? (client.offerFor i) =
      ((client.triedIn associations i).findSome? (client.choiceIn i r)).map
        (Choice.creation i) := by
  have hl := leads_resourcePositions hr
  have hall : (client.collectionPositions.map
        fun collection => (⟨collection, client.resourcePositions⟩ : Trial)).findSome?
          (client.offerFor i) =
      (client.collectionPositions.findSome? (client.choiceIn i r)).map (Choice.creation i) := by
    rw [List.findSome?_map, List.map_findSome?]
    congr 1
    funext collection
    exact offerFor_eq_choiceIn hr hl collection
  rw [trials, triedIn, List.findSome?_append, List.findSome?_append,
    findSome?_associations hn hr, hall, Option.map_or]

end Client

theorem Assembly.name_of_mem_unclassified {a : Assembly} {service : Service} {r : Resource}
    (h : r ∈ (a.unclassified service).resources) : r.name = resourceName r.schema.name := by
  obtain ⟨schema, _, rfl⟩ := List.mem_map.mp h
  rfl

/-- A resource of a service gets the first create it is eligible for, in the first category, in the
first of the collections in which it is tried, and stays immutable if there is none. -/
theorem Assembly.create_eq_first_eligible (a : Assembly) (service : Service)
    (lite : a.settings.fluentLite = true) (i : Nat) :
    (a.client service).value.resources[i]?.map (fun r => (r.category, r.create)) =
      let start := a.unclassified service
      start.resources[i]?.map fun r =>
        match (start.triedIn a.settings.associations i).findSome? (start.choiceIn i r) with
        | none => (.immutable, none)
        | some ⟨collection, category, m⟩ =>
          (category, some
            { resource := i
              collection
              url := m.url
              method := m.name
              bodySchema := m.bodyType?
              references := Client.referencesTo (start.methods collection) m.name }) := by
  let start := a.unclassified service
  have hg := congrArg (Option.map fun r : Resource => (r.category, r.create))
    (a.getElem?_client service lite i)
  rw [Option.map_map, Option.map_map] at hg
  change _ = start.resources[i]?.map _
  refine Eq.trans hg ?_
  change start.resources[i]?.map _ = _
  cases hr : start.resources[i]? with
  | none => rfl
  | some r =>
    have ho : r.outline = r := outline_of_mem_unclassified (List.mem_of_getElem? hr)
    rw [Option.map_some, Option.map_some, Function.comp_apply,
      Client.findSome?_trials (fun _ => name_of_mem_unclassified) hr]
    cases (start.triedIn a.settings.associations i).findSome? (start.choiceIn i r) with
    | none =>
      change some (r.category, r.create) = _
      rw [← ho]
      rfl
    | some choice => rfl

theorem create_in_workshop :
    ((Assembly.fresh .standard).client Workshop.service).value.resources[0]?.map
        (fun r => (r.category, r.create)) =
      some (.resourceGroupAsParent, some
        ⟨0, 0, ⟨Workshop.toolUrl⟩, "createOrUpdate", some "ToolInner", [4, 5]⟩) :=
  (Assembly.create_eq_first_eligible (.fresh .standard) Workshop.service rfl 0).trans
    (by decide +kernel)

end Lifecycle
