import Lifecycle.Proofs.Mirror

/-!
# What plays no part in classification

The client of the gist of a service mirrors that of the service, resource by resource. So services
of one gist, which differ in examples, content types, expected status codes, item names and all of
properties but their names and types, are classified alike.
-/
namespace Lifecycle

def OperationGroup.gist (group : OperationGroup) : OperationGroup :=
  { group with operations := group.operations.map Operation.gist }

def Service.gist (service : Service) : Service :=
  { service with
    schemas := service.schemas.map Schema.gist
    groups := service.groups.map OperationGroup.gist }

/-! ### Schemas and their properties -/

theorem findSchema_gist (schemas : List Schema) (name : String) :
    findSchema (schemas.map Schema.gist) name = (findSchema schemas name).map Schema.gist := by
  unfold findSchema
  rw [List.find?_map]
  rfl

theorem ancestorsFrom_gist (schemas : List Schema) (fuel : Nat) (parent : Option String) :
    ancestorsFrom (schemas.map Schema.gist) fuel parent =
      (ancestorsFrom schemas fuel parent).map Schema.gist := by
  induction fuel generalizing parent with
  | zero => rfl
  | succ fuel ih =>
    cases parent with
    | none => rfl
    | some name =>
      rw [ancestorsFrom, ancestorsFrom, findSchema_gist]
      cases findSchema schemas name with
      | none => rfl
      | some s => exact congrArg (s.gist :: ·) (ih s.parent)

theorem unmetProperties_gist (met : List String) (properties : List Property) :
    unmetProperties met (properties.map Property.gist) =
      (unmetProperties met properties).map Property.gist := by
  induction properties generalizing met with
  | nil => rfl
  | cons p rest ih =>
    have hn : p.gist.name = p.name := rfl
    rw [List.map_cons, unmetProperties, unmetProperties, hn, ih, ih]
    split <;> rfl

theorem layeredProperties_gist (met : List String) (schemas : List Schema) :
    layeredProperties met (schemas.map Schema.gist) =
      (layeredProperties met schemas).map Property.gist := by
  induction schemas generalizing met with
  | nil => rfl
  | cons s further ih =>
    have hs : s.gist.properties = s.properties.map Property.gist := rfl
    rw [List.map_cons, layeredProperties, layeredProperties, hs, unmetProperties_gist, ih,
      List.map_append, List.map_map]
    rfl

/-- Merging commutes with taking the gist, cycles of parents included. -/
theorem mergedProperties_gist (schemas : List Schema) (s : Schema) :
    mergedProperties (schemas.map Schema.gist) s.gist =
      (mergedProperties schemas s).map Property.gist := by
  have ha : ancestors (schemas.map Schema.gist) s.gist = (ancestors schemas s).map Schema.gist := by
    unfold ancestors
    rw [List.length_map]
    exact ancestorsFrom_gist schemas _ s.parent
  unfold mergedProperties
  rw [ha, ← List.map_cons, layeredProperties_gist]

/-! ### Operations and clients -/

theorem collectionMethods_gist (op : Operation) :
    op.gist.collectionMethods = op.collectionMethods.map Method.gist := by
  have hm : op.gist.methods = op.methods.map Method.gist := by
    have hp : op.gist.paging.isSome = op.paging.isSome := Option.isSome_map
    unfold Operation.methods
    rw [hp]
    dsimp only
    split
    · rfl
    · change (if op.longRunning then _ else _) = _
      split <;> rfl
  unfold Operation.collectionMethods
  rw [hm, List.filter_map]
  rfl

theorem returnedSchemas_gist (service : Service) :
    service.gist.returnedSchemas = service.returnedSchemas := by
  have hf (name : String) : (findSchema service.gist.schemas name).isSome =
      (findSchema service.schemas name).isSome := by
    change (findSchema (service.schemas.map Schema.gist) name).isSome = _
    rw [findSchema_gist, Option.isSome_map]
  have ho : (service.gist.groups.flatMap (·.operations)).filterMap (·.returnType) =
      (service.groups.flatMap (·.operations)).filterMap (·.returnType) := by
    change ((service.groups.map OperationGroup.gist).flatMap _).filterMap _ = _
    rw [List.flatMap_map, List.filterMap_flatMap, List.filterMap_flatMap]
    congr 1
    funext group
    exact List.filterMap_map
  unfold Service.returnedSchemas
  simp only [hf, ho]

/-- Before any classification, the client of the gist is the gist of the client. -/
theorem Assembly.unclassified_gist (a : Assembly) (service : Service) :
    a.unclassified service.gist = (a.unclassified service).gist := by
  have hw : (a.meetSchemas service.gist).wrapped = (a.meetSchemas service).wrapped := by
    unfold meetSchemas
    rw [returnedSchemas_gist]
  unfold unclassified Client.gist
  rw [hw]
  rw [Client.mk.injEq]
  refine ⟨rfl, rfl, ?_, ?_⟩
  · change ((service.schemas.map Schema.gist).filter _).map _ = _
    rw [List.filter_map, List.map_map, List.map_map]
    congr 1
    funext s
    change Resource.ofSchema (service.schemas.map Schema.gist) s.gist = _
    unfold Resource.ofSchema
    rw [mergedProperties_gist]
    rfl
  · change (service.groups.map OperationGroup.gist).map _ = _
    rw [List.map_map, List.map_map]
    congr 1
    funext group
    change Collection.ofGroup group.gist = _
    unfold Collection.ofGroup OperationGroup.gist
    dsimp only
    rw [List.flatMap_map]
    simp only [collectionMethods_gist, ← List.map_flatMap]
    rfl

theorem Resource.renumber_refl (r : Resource) : r.renumber (Equiv.refl Nat) = r := by
  have hb : (fun b : Binding => b.renumber (Equiv.refl Nat)) = id := rfl
  have ha : (fun a : Actions => a.renumber (Equiv.refl Nat)) = id := rfl
  unfold renumber
  simp only [hb, ha, Option.map_id_fun]
  rfl

theorem Collection.renumber_refl (c : Collection) : c.renumber (Equiv.refl Nat) = c := by
  unfold renumber
  simp only [Equiv.coe_refl, List.map_id_fun, id]

/-- The first position of a chosen entry. -/
theorem Indexed.find?_positions {α : Type} (chosen : α → Bool) (entries : List α) :
    (List.range entries.length).find? (fun i => entries[i]?.any chosen) =
      entries.findIdx? chosen := by
  induction entries with
  | nil => rfl
  | cons entry rest ih =>
    rw [List.length_cons, List.range_succ_eq_map, List.find?_cons, List.findIdx?_cons,
      List.find?_map, ← ih, List.getElem?_cons_zero, Option.any_some]
    cases chosen entry <;> rfl

namespace Client

/-- A client and its gist, with every resource at its own position. -/
theorem mirrors_gist (client : Client) : Mirrors (Equiv.refl Nat) client client.gist := by
  constructor
  · exact findSchema_gist client.schemas
  · intro i
    simp only [Resource.renumber_refl]
    exact List.getElem?_map
  · simp only [Collection.renumber_refl]
    rfl

/-- A mirror without a renumbering is the gist. -/
theorem Mirrors.eq_gist {k k' : Client} (h : Mirrors (Equiv.refl Nat) k k')
    (hn : k'.name = k.name) (hs : k'.schemas = k.schemas.map Schema.gist) : k' = k.gist := by
  have hr : k'.resources = k.resources.map Resource.gist := by
    apply List.ext_getElem?
    intro i
    have hi := h.resources i
    simp only [Resource.renumber_refl] at hi
    rw [List.getElem?_map]
    exact hi
  have hc := h.collections
  simp only [Collection.renumber_refl] at hc
  cases k'
  exact Client.mk.injEq .. |>.mpr ⟨hn, hs, hr, hc⟩

theorem resourceNamed?_gist (client : Client) (name : String) :
    client.gist.resourceNamed? name = client.resourceNamed? name := by
  unfold resourceNamed? gist
  rw [List.findIdx?_map]
  rfl

/-- Among all resources, the first that wraps a schema is found by the name of the schema. -/
theorem wrapperOf?_resourcePositions (client : Client) (schema : String) :
    client.wrapperOf? client.resourcePositions schema =
      client.resources.findIdx? (·.schema.name == schema) := by
  rw [wrapperOf?_eq]
  exact Indexed.find?_positions (·.schema.name == schema) client.resources

theorem wrapperOf?_resourcePositions_gist (client : Client) (schema : String) :
    client.gist.wrapperOf? client.gist.resourcePositions schema =
      client.wrapperOf? client.resourcePositions schema := by
  rw [wrapperOf?_resourcePositions, wrapperOf?_resourcePositions, gist, List.findIdx?_map]
  rfl

end Client

/-- The client of the gist of a service is the gist of its client. -/
theorem Assembly.client_gist (a : Assembly) (service : Service) :
    (a.client service.gist).value = (a.client service).value.gist := by
  have h : Client.Mirrors (Equiv.refl Nat) (a.client service).value
      (a.client service.gist).value := by
    apply mirrors_client
    · rw [a.unclassified_gist]
      exact (a.unclassified service).mirrors_gist
    · intro name
      rw [a.unclassified_gist, Client.resourceNamed?_gist]
      exact Option.map_id'.symm
    · intro schema
      rw [a.unclassified_gist, Client.wrapperOf?_resourcePositions_gist]
      exact Option.map_id'.symm
  have ho := a.outline_client service
  have ho' := a.outline_client service.gist
  exact h.eq_gist ((congrArg Client.name ho').trans (congrArg Client.name ho).symm)
    ((congrArg Client.schemas ho').trans
      (congrArg (fun k => k.schemas.map Schema.gist) ho).symm)

/-! ### Services of one gist -/

/-- What is found out about a resource. -/
def Resource.findings (r : Resource) :=
  (r.name, r.category, r.create, r.update, r.refresh, r.delete, r.actions, r.extraMethods)

/-- What is found out about a collection, and the names of its methods. -/
def Collection.findings (c : Collection) :=
  (c.name, c.methods.map (·.name), c.creates, c.updates, c.refreshes, c.deletes, c.extraMethods)

theorem Client.findings_resources_gist (client : Client) :
    client.gist.resources.map Resource.findings = client.resources.map Resource.findings :=
  List.map_map

theorem Client.findings_collections_gist (client : Client) :
    client.gist.collections.map Collection.findings =
      client.collections.map Collection.findings := by
  change (client.collections.map Collection.gist).map _ = _
  rw [List.map_map]
  congr 1
  funext c
  rw [Function.comp_apply, Collection.findings, Collection.gist, List.map_map]
  rfl

/-- Services that differ in nothing but examples, content types, expected status codes and item
names of operations, and in serialized names, flags and descriptions of properties, are classified
alike under all settings. -/
theorem Assembly.findings_eq_of_gist_eq (a : Assembly) {service service' : Service}
    (h : service'.gist = service.gist) :
    let client := (a.client service).value
    let client' := (a.client service').value
    client'.resources.map Resource.findings = client.resources.map Resource.findings ∧
      client'.collections.map Collection.findings =
        client.collections.map Collection.findings := by
  intro client client'
  have hg : client'.gist = client.gist := by rw [← a.client_gist, h, a.client_gist]
  constructor
  · rw [← client'.findings_resources_gist, hg, client.findings_resources_gist]
  · rw [← client'.findings_collections_gist, hg, client.findings_collections_gist]

namespace Workshop

/-- The workshop with an example for each operation and with properties that have to be given. -/
def annotated : Service where
  name := service.name
  schemas := service.schemas.map fun s =>
    { s with properties := s.properties.map fun p => { p with required := true } }
  groups := service.groups.map fun group =>
    { group with
      operations := group.operations.map fun op =>
        { op with
          requestContentType := some "text/plain"
          expectedStatusCodes := [202]
          examples := [("Update", ⟨none, [], []⟩)] } }

end Workshop

theorem workshops_alike :
    let client := ((Assembly.fresh .standard).client Workshop.service).value
    let client' := ((Assembly.fresh .standard).client Workshop.annotated).value
    Workshop.annotated.gist = Workshop.service.gist ∧
      client.resources[0]?.map (·.category) = some .resourceGroupAsParent ∧
      client'.resources.map Resource.findings = client.resources.map Resource.findings ∧
      client'.collections.map Collection.findings =
        client.collections.map Collection.findings :=
  ⟨rfl, by decide +kernel, Assembly.findings_eq_of_gist_eq (.fresh .standard) rfl⟩

end Lifecycle
