import Mathlib.Data.Option.Basic
import Lifecycle.Proofs.Outline

/-!
# Which creates are found

A method offers a create in each category that its URL fits; what has been bound before plays no
part in that. Going through categories and methods, classification takes the first offer for each
resource that has no create yet, and writes it into the resource and the collection.
-/
namespace Lifecycle

open Indexed

/-- A create for a resource, and the category that it puts the resource in. -/
structure Creation where
  category : Category
  binding : Binding

def Creation.resource (f : Creation) : Nat := f.binding.resource

theorem Returns.value?_eq_some_iff {returns : Returns} {schema : String} :
    returns.value? = some schema ↔ returns = .value schema := by
  cases returns <;> simp [value?]

namespace Collection

/-- The collection with more resources that a phase of is bound to it. -/
def enlistAll (c : Collection) (resources : List Nat) : Phase → Collection
  | .create => { c with creates := c.creates ++ resources }
  | .update => { c with updates := c.updates ++ resources }
  | .refresh => { c with refreshes := c.refreshes ++ resources }
  | .delete => { c with deletes := c.deletes ++ resources }

theorem foldl_enlist (c : Collection) (resources : List Nat) (phase : Phase) :
    resources.foldl (fun c resource => c.enlist resource phase) c =
      c.enlistAll resources phase := by
  induction resources generalizing c with
  | nil => cases phase <;> simp [enlistAll]
  | cons resource rest ih =>
    rw [List.foldl_cons, ih]
    cases phase <;> simp [enlist, enlistAll]

theorem outline_enlistAll (c : Collection) (resources : List Nat) (phase : Phase) :
    (c.enlistAll resources phase).outline = c.outline := by
  cases phase <;> rfl

theorem modify_enlistAll (cs : List Collection) (collection : Nat) (resources : List Nat)
    (phase : Phase) :
    cs.modify collection (·.enlistAll resources phase) =
      resources.foldl (fun cs resource => cs.modify collection (·.enlist resource phase)) cs := by
  rw [foldl_modify_same (fun resource c => Collection.enlist c resource phase)]
  congr 1
  funext c
  exact (foldl_enlist c resources phase).symm

end Collection

namespace Client

/-- The create that a method offers in a category, whether or not one is bound. -/
def offer? (client : Client) (collection : Nat) (candidates : List Nat) (category : Category)
    (m : Method) : Option Creation := do
  let i ← client.target? candidates category m
  let body ← m.bodyType?.bind client.schema?
  pure ⟨category, ⟨i, collection, m.url, m.name, some body.name, []⟩⟩

/-- The offers of a collection, in the order in which they are looked at. -/
def offers (client : Client) (collection : Nat) (candidates : List Nat)
    (categories : List Category) : List Creation :=
  categories.flatMap fun category =>
    (client.methods collection).filterMap (client.offer? collection candidates category)

/-- The creates that are found in a collection: the first offer for each resource without one. -/
def creations (client : Client) (collection : Nat) (candidates : List Nat) : List Creation :=
  firsts Creation.resource client.isCreated
    (client.offers collection candidates Category.priority)

theorem value_bodySchema (client : Client) (m : Method) :
    (client.bodySchema m).value = m.bodyType?.bind client.schema? := by
  unfold bodySchema
  cases m.bodyType? <;> rfl

/-- All that a method must meet to create the resource at a position, but for an earlier create.
-/
theorem target?_eq_some_iff {client : Client} {candidates : List Nat} {category : Category}
    {m : Method} {i : Nat} :
    client.target? candidates category m = some i ↔
      putsResource m = true ∧
      ∃ schema, m.returns.value? = some schema ∧ client.wrapperOf? candidates schema = some i ∧
      ∃ r, client.resources[i]? = some r ∧ r.isCreatable = true ∧
        m.url.endsInParameter = true ∧ category.fits m.url = true := by
  simp only [target?, Option.bind_eq_bind, Option.bind_eq_some_iff, Option.guard_eq_some',
    Option.pure_def, Option.some.injEq, Bool.and_eq_true, exists_const]
  constructor
  · rintro ⟨hp, schema, hs, j, hw, r, hr, ⟨⟨hc, he⟩, hf⟩, rfl⟩
    exact ⟨hp, schema, hs, hw, r, hr, hc, he, hf⟩
  · rintro ⟨hp, schema, hs, hw, r, hr, hc, he, hf⟩
    exact ⟨hp, schema, hs, i, hw, r, hr, ⟨⟨hc, he⟩, hf⟩, rfl⟩

theorem offer?_eq_some_iff {client : Client} {collection : Nat} {candidates : List Nat}
    {category : Category} {m : Method} {f : Creation} :
    client.offer? collection candidates category m = some f ↔
      ∃ i, client.target? candidates category m = some i ∧
      ∃ body, m.bodyType?.bind client.schema? = some body ∧
        f = ⟨category, ⟨i, collection, m.url, m.name, some body.name, []⟩⟩ := by
  simp only [offer?, Option.bind_eq_bind, Option.bind_eq_some_iff, Option.pure_def,
    Option.some.injEq, eq_comm (a := f)]

/-- A method is taken for the create that it offers, unless its resource has one. -/
theorem value_createIn (client : Client) (collection : Nat) (candidates taken : List Nat)
    (category : Category) (m : Method) :
    (client.createIn collection candidates taken category m).value =
      ((client.offer? collection candidates category m).filter fun f =>
        !(client.isCreated f.resource || taken.contains f.resource)).map (·.binding) := by
  unfold createIn createdBy? offer?
  cases client.target? candidates category m with
  | none => rfl
  | some i =>
    cases hc : client.isCreated i with
    | true =>
      rw [Option.filter_some_neg (by simp [hc])]
      cases m.bodyType?.bind client.schema? with
      | none => rfl
      | some body => simp [Option.filter, Creation.resource, hc]
    | false =>
      rw [Option.filter_some_pos (by simp [hc])]
      by_cases ht : i ∈ taken
      · cases m.bodyType?.bind client.schema? with
        | none => simp [ht]
        | some body => simp [Option.filter, Creation.resource, ht]
      · have hn : ¬ taken.contains i = true := by simpa using ht
        change (if taken.contains i then _ else _ : Logged (Option Binding)).value = _
        rw [if_neg hn, Logged.value_bind, value_bodySchema]
        cases m.bodyType?.bind client.schema? with
        | none => rfl
        | some body => simp [Option.filter, Creation.resource, hc, ht]

/-- The search step by step keeps the first offer for each resource neither created nor taken. -/
theorem value_createsIn (client : Client) (collection : Nat) (candidates taken : List Nat)
    (category : Category) (methods : List Method) :
    (client.createsIn collection candidates category taken methods).value =
      (firsts Creation.resource (fun i => client.isCreated i || taken.contains i)
        (methods.filterMap (client.offer? collection candidates category))).map (·.binding) := by
  induction methods generalizing taken with
  | nil => rfl
  | cons m rest ih =>
    rw [createsIn, Logged.value_bind, value_createIn]
    cases ho : client.offer? collection candidates category m with
    | none =>
      rw [List.filterMap_cons_none ho]
      exact ih taken
    | some f =>
      rw [List.filterMap_cons_some ho, firsts]
      by_cases hf : (client.isCreated f.resource || taken.contains f.resource) = true
      · rw [Option.filter_some_neg (by rw [hf]; rfl), if_pos hf]
        exact ih taken
      · rw [Option.filter_some_pos (by simpa using hf), if_neg hf]
        change f.binding :: (client.createsIn collection candidates category
          (f.resource :: taken) rest).value = _
        rw [ih, List.map_cons]
        congr 3
        funext i
        rw [List.contains_cons, Bool.beq_comm, ← Bool.or_assoc, ← Bool.or_assoc]
        congr 1
        exact Bool.or_comm _ _

theorem target?_outline (client : Client) (candidates : List Nat) (category : Category)
    (m : Method) :
    client.outline.target? candidates category m = client.target? candidates category m := by
  apply Option.ext
  intro i
  rw [target?_eq_some_iff, target?_eq_some_iff]
  simp only [wrapperOf?_outline, getElem?_outline, Option.map_eq_some_iff]
  constructor
  · rintro ⟨hp, schema, hs, hw, _, ⟨r, hr, rfl⟩, h⟩
    exact ⟨hp, schema, hs, hw, r, hr, h⟩
  · rintro ⟨hp, schema, hs, hw, r, hr, h⟩
    exact ⟨hp, schema, hs, hw, _, ⟨r, hr, rfl⟩, h⟩

/-- What is bound plays no part in what is offered. -/
theorem offers_outline (client : Client) (collection : Nat) (candidates : List Nat)
    (categories : List Category) :
    client.outline.offers collection candidates categories =
      client.offers collection candidates categories := by
  unfold offers
  rw [methods_outline]
  congr 1
  funext category
  congr 1
  funext m
  unfold offer?
  rw [target?_outline]
  rfl

/-- Offers depend on the outline alone, so bindings made meanwhile change none of them. -/
theorem offers_congr {a b : Client} (h : a.outline = b.outline) (collection : Nat)
    (candidates : List Nat) (categories : List Category) :
    a.offers collection candidates categories = b.offers collection candidates categories := by
  rw [← offers_outline, h, offers_outline]

theorem offers_cons (client : Client) (collection : Nat) (candidates : List Nat)
    (category : Category) (rest : List Category) :
    client.offers collection candidates (category :: rest) =
      (client.methods collection).filterMap (client.offer? collection candidates category) ++
        client.offers collection candidates rest :=
  List.flatMap_cons

/-- What holds of all that a collection offers. -/
structure Offered (client : Client) (collection : Nat) (categories : List Category)
    (f : Creation) : Prop where
  category : f.category ∈ categories
  place : f.binding.collection = collection
  within : collection < client.collections.length
  exists_resource : ∃ r, client.resources[f.resource]? = some r
  url : f.binding.url.endsInParameter = true

theorem offered_of_mem {client : Client} {collection : Nat} {candidates : List Nat}
    {categories : List Category} {f : Creation}
    (h : f ∈ client.offers collection candidates categories) :
    client.Offered collection categories f := by
  obtain ⟨category, hk, hf⟩ := List.mem_flatMap.mp h
  obtain ⟨m, hm, ho⟩ := List.mem_filterMap.mp hf
  obtain ⟨i, ht, _, _, rfl⟩ := offer?_eq_some_iff.mp ho
  obtain ⟨_, _, _, _, r, hr, _, hu, _⟩ := target?_eq_some_iff.mp ht
  refine ⟨hk, rfl, ?_, ⟨r, hr⟩, hu⟩
  unfold methods at hm
  cases hc : client.collections[collection]? with
  | none =>
    rw [hc] at hm
    cases hm
  | some c => exact (List.getElem?_eq_some_iff.mp hc).1

theorem offered_of_mem_creations {client : Client} {collection : Nat} {candidates : List Nat}
    {f : Creation} (h : f ∈ client.creations collection candidates) :
    client.Offered collection Category.priority f :=
  offered_of_mem (firsts_subset _ h)

/-! ### Binding what is found -/

/-- The client with a create bound that was found, without its references. -/
def register (client : Client) (f : Creation) : Client :=
  (client.bind .create f.binding).modifyResource f.resource fun r =>
    { r with category := f.category }

theorem outline_register (client : Client) (f : Creation) :
    (client.register f).outline = client.outline := by
  unfold register
  rw [outline_modifyResource, outline_bind]
  exact fun r => rfl

theorem outline_foldl_register (found : List Creation) (client : Client) :
    (found.foldl register client).outline = client.outline := by
  induction found generalizing client with
  | nil => rfl
  | cons f rest ih => rw [List.foldl_cons, ih, outline_register]

theorem resources_register (client : Client) (f : Creation) :
    (client.register f).resources = client.resources.modify f.resource fun r =>
      { r with category := f.category, create := some f.binding } := by
  unfold register
  exact List.modify_modify_eq _ _ _ _

theorem resources_foldl_register {found : List Creation}
    (h : (found.map Creation.resource).Nodup) (client : Client) :
    (found.foldl register client).resources = client.resources.mapIdx
      (patch Creation.resource
        (fun f r => { r with category := f.category, create := some f.binding }) found) := by
  rw [← foldl_modify_eq_mapIdx h]
  symm
  apply List.foldl_hom Client.resources
  intro k f
  exact (resources_register k f).symm

/-- The creates that count as found, or are bound, afterwards were so before. -/
theorem isCreated_foldl_register {found : List Creation}
    (h : (found.map Creation.resource).Nodup) (client : Client) (i : Nat) :
    ((found.foldl register client).isCreated i || (found.map Creation.resource).contains i) =
      ((found.map Creation.resource).contains i || client.isCreated i) := by
  unfold isCreated
  rw [resources_foldl_register h, List.getElem?_mapIdx, Bool.or_comm]
  by_cases hi : i ∈ found.map Creation.resource
  · rw [List.contains_iff_mem.mpr hi, Bool.true_or, Bool.true_or]
  · congr 1
    cases client.resources[i]? with
    | none => rfl
    | some r => rw [Option.map_some, patch_of_not_mem hi]

/-- No resource is found twice, over all categories together. -/
theorem nodup_creations (client : Client) (collection : Nat) (candidates : List Nat) :
    ((client.creations collection candidates).map Creation.resource).Nodup :=
  nodup_keys_firsts _

/-- Creates that were offered for a category are registered with it, one after the other. -/
theorem value_foldlM_bindCreate {category : Category} {found : List Creation}
    (h : ∀ f ∈ found, f.category = category) (client : Client) :
    ((found.map (·.binding)).foldlM (bindCreate category) client).value =
      found.foldl register client := by
  rw [Logged.value_foldlM, List.foldl_map]
  apply List.foldl_ext
  intro k f hf
  rw [← h f hf]
  rfl

theorem category_of_offer? {client : Client} {collection : Nat} {candidates : List Nat}
    {category : Category} {m : Method} {f : Creation}
    (h : client.offer? collection candidates category m = some f) : f.category = category := by
  obtain ⟨_, _, _, _, rfl⟩ := offer?_eq_some_iff.mp h
  rfl

/-- Going through categories finds the first offer for each resource. -/
theorem value_createStep (collection : Nat) (candidates : List Nat) (categories : List Category)
    (client : Client) (created : List Nat) :
    let found := firsts Creation.resource (fun i => client.isCreated i || created.contains i)
      (client.offers collection candidates categories)
    (createStep collection candidates categories (client, created)).value =
      (found.foldl register client, created ++ found.map Creation.resource) := by
  intro found
  induction categories generalizing client created with
  | nil =>
    have hf : found = [] := rfl
    rw [hf]
    simp [createStep]
  | cons category rest ih =>
    -- what this category finds, and the client it leaves to the others
    let here := firsts Creation.resource (fun i => client.isCreated i || created.contains i)
      ((client.methods collection).filterMap (client.offer? collection candidates category))
    let next := here.foldl register client
    have hn : (here.map Creation.resource).Nodup := nodup_keys_firsts _
    have ho : next.outline = client.outline := outline_foldl_register here client
    have hk : ∀ f ∈ here, f.category = category := by
      intro f hf
      obtain ⟨m, _, hm⟩ := List.mem_filterMap.mp (firsts_subset _ hf)
      exact category_of_offer? hm
    have hb : ((here.map (·.binding)).foldlM (bindCreate category) client).value = next :=
      value_foldlM_bindCreate hk client
    have ht : (fun i => next.isCreated i || (created ++ here.map Creation.resource).contains i) =
        fun i => (here.map Creation.resource).contains i ||
          (client.isCreated i || created.contains i) := by
      funext i
      have h := isCreated_foldl_register hn client i
      rw [List.contains_append, Bool.or_comm (created.contains i), ← Bool.or_assoc,
        ← Bool.or_assoc]
      exact congrArg (· || created.contains i) h
    have hfound : found = here ++ firsts Creation.resource
        (fun i => next.isCreated i || (created ++ here.map Creation.resource).contains i)
        (next.offers collection candidates rest) := by
      rw [ht, offers_congr ho]
      change firsts _ _ (client.offers collection candidates (category :: rest)) = _
      rw [offers_cons, firsts_append]
    rw [hfound, List.foldl_append, List.map_append, ← List.append_assoc]
    rw [createStep, Logged.value_bind, Logged.value_bind, value_createsIn, hb, List.map_map]
    exact ih next (created ++ here.map Creation.resource)

/-! ### References -/

/-- A binding with the positions of all methods of its operation. -/
def referred (client : Client) (b : Binding) : Binding :=
  { b with references := referencesTo (client.methods b.collection) b.method }

/-- A resource after a create was found for it. -/
def opened (client : Client) (f : Creation) (r : Resource) : Resource :=
  { r with category := f.category, create := some (client.referred f.binding) }

/-- The client with all creates bound that were found in a collection. -/
def withCreates (client : Client) (collection : Nat) (found : List Creation) : Client :=
  { client with
    resources := client.resources.mapIdx (patch Creation.resource client.opened found)
    collections := client.collections.modify collection
      (·.enlistAll (found.map Creation.resource) .create) }

theorem collections_foldl_register {collection : Nat} {found : List Creation}
    (h : ∀ f ∈ found, f.binding.collection = collection) (client : Client) :
    (found.foldl register client).collections = client.collections.modify collection
      (·.enlistAll (found.map Creation.resource) .create) := by
  rw [Collection.modify_enlistAll, List.foldl_map]
  symm
  calc found.foldl (fun cs f => cs.modify collection (·.enlist f.resource .create))
        client.collections
      = found.foldl (fun cs f => cs.modify f.binding.collection (·.enlist f.resource .create))
        client.collections := by
          apply List.foldl_ext
          intro cs f hf
          rw [h f hf]
    _ = (found.foldl register client).collections :=
          List.foldl_hom Client.collections fun k f => rfl

theorem foldl_referCreate {created : List Nat} (h : created.Nodup) (collection : Nat)
    (client : Client) :
    created.foldl (referCreate collection) client =
      { client with
        resources := client.resources.mapIdx (patch id (fun _ r =>
          { r with create := r.create.map fun b =>
            { b with references := referencesTo (client.methods collection) b.method } })
          created) } := by
  have hk : (created.map id).Nodup := by rwa [List.map_id]
  rw [← foldl_modify_eq_mapIdx hk]
  clear hk
  induction created generalizing client with
  | nil => rfl
  | cons i rest ih =>
    rw [List.foldl_cons, ih (List.nodup_cons.mp h).2]
    rfl

/-- What one pass for creates does. -/
theorem value_bindCreates (client : Client) (collection : Nat) (candidates : List Nat) :
    (client.bindCreates collection candidates Category.priority).value =
      (client.withCreates collection (client.creations collection candidates),
        (client.creations collection candidates).map Creation.resource) := by
  let found := client.creations collection candidates
  have hn : (found.map Creation.resource).Nodup := client.nodup_creations collection candidates
  have hc : ∀ f ∈ found, f.binding.collection = collection :=
    fun f hf => (offered_of_mem_creations hf).place
  have hs : (createStep collection candidates Category.priority (client, [])).value =
      (found.foldl register client, found.map Creation.resource) := by
    rw [value_createStep]
    simp only [List.contains_nil, Bool.or_false, List.nil_append]
    rfl
  have ho : (found.foldl register client).outline = client.outline :=
    outline_foldl_register found client
  have hm : (found.foldl register client).methods collection = client.methods collection :=
    methods_eq_of_outline ho collection
  unfold bindCreates
  rw [Logged.value_bind, hs]
  change ((found.map Creation.resource).foldl (referCreate collection)
    (found.foldl register client), found.map Creation.resource) = _
  congr 1
  rw [foldl_referCreate hn, hm, withCreates, Client.mk.injEq]
  refine ⟨name_eq_of_outline ho, schemas_eq_of_outline ho, ?_, ?_⟩
  · rw [resources_foldl_register hn, patch_map_keys, mapIdx_patch_patch]
    congr 1
    apply patch_congr
    intro f hf
    rw [← hc f hf]
    rfl
  · exact collections_foldl_register hc client

end Client

end Lifecycle
