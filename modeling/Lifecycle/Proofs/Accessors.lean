import Lifecycle.Proofs.ByIdentifier

/-!
# Extra accessors of resources

A resource may have accessors of its region and of its resource group beside those of its
properties. Their names differ from each other, and from the names of all properties but one:
`regionName` is added wherever `region` is, and for that only a property `region` is looked for.
-/
namespace Lifecycle

/-- The region of a created resource can be told from its location. -/
structure Resource.TellsRegion (r : Resource) : Prop where
  created : r.category ≠ .immutable
  located : ∃ p ∈ r.properties, p.name = "location" ∧ p.type = .string
  free : ∀ p ∈ r.properties, p.name ≠ "region"

namespace Client

/-- Callers name the resource group by a parameter when they create a resource: the parameter of the
innermost resource group in the URL, up to the case of letters. -/
structure NamesGroup (client : Client) (create : Binding) (group : ParameterSegment) (m : Method)
    (p : Parameter) : Prop where
  innermost : create.url.parameters.find? (·.kind == .resourceGroup) = some group
  full : (client.references create).find? (!·.requiredOnly) = some m
  declared : p ∈ m.operation.parameters
  in_path : p.location = .path
  supplied : p.constant = false ∧ p.fromClient = false
  same : Text.equalIgnoringCase p.serializedName group.parameter = true

/-- The resource group of an updatable resource can be told from the parameters of its create. -/
structure TellsGroup (client : Client) (r : Resource) : Prop where
  updatable : r.update.isSome = true
  category : r.category = .resourceGroupAsParent ∨ r.category = .nestedChild
  free : ∀ p ∈ r.properties, p.name ≠ "resourceGroupName"
  named : ∃ create group m p, r.create = some create ∧ client.NamesGroup create group m p

variable {client : Client} {r : Resource} {create : Binding}

theorem mem_parametersAt_path_iff {m : Method} (hm : m.requiredOnly = false) {p : Parameter} :
    p ∈ m.parametersAt .path ↔ p ∈ m.operation.parameters ∧ p.location = .path ∧
      p.constant = false ∧ p.fromClient = false := by
  simp only [Method.parametersAt, Method.parameters, List.mem_filter, hm, Parameter.isCallerSupplied,
    Bool.not_false, Bool.true_or, Bool.and_true, Bool.and_eq_true, Bool.not_eq_true', beq_iff_eq]
  exact and_right_comm.trans (and_assoc)

theorem namesResourceGroup_iff :
    client.namesResourceGroup create = true ↔ ∃ group m p, client.NamesGroup create group m p := by
  unfold namesResourceGroup fullMethod?
  constructor
  · intro h
    split at h
    · rename_i group m hg hm
      have hfull : m.requiredOnly = false := by simpa using List.find?_some hm
      obtain ⟨p, hp, hsame⟩ := List.any_eq_true.mp h
      obtain ⟨hp, hpath, hcaller⟩ := (mem_parametersAt_path_iff hfull).mp hp
      exact ⟨group, m, p, hg, hm, hp, hpath, hcaller, hsame⟩
    · cases h
  · rintro ⟨group, m, p, h⟩
    have hfull : m.requiredOnly = false := by simpa using List.find?_some h.full
    rw [h.innermost, h.full]
    exact List.any_eq_true.mpr
      ⟨p, (mem_parametersAt_path_iff hfull).mpr ⟨h.declared, h.in_path, h.supplied⟩, h.same⟩

theorem hasProperty_eq_false {name : String} :
    r.hasProperty name = false ↔ ∀ p ∈ r.properties, p.name ≠ name := by
  simp [← Bool.not_eq_true, Resource.hasProperty_iff]

theorem tellsRegion_iff : r.TellsRegion ↔
    (r.category != .immutable && hasLocation r.properties && !r.hasProperty "region") = true := by
  rw [Bool.and_eq_true, Bool.and_eq_true, bne_iff_ne, Bool.not_eq_true', hasProperty_eq_false]
  have hl : hasLocation r.properties = true ↔
      ∃ p ∈ r.properties, p.name = "location" ∧ p.type = .string := by
    simp [hasLocation]
  rw [hl]
  exact ⟨fun h => ⟨⟨h.created, h.located⟩, h.free⟩, fun h => ⟨h.1.1, h.1.2, h.2⟩⟩

theorem tellsGroup_iff : client.TellsGroup r ↔
    ((r.category == .resourceGroupAsParent || r.category == .nestedChild) && r.update.isSome &&
      !r.hasProperty "resourceGroupName" && r.create.any client.namesResourceGroup) = true := by
  rw [Bool.and_eq_true, Bool.and_eq_true, Bool.and_eq_true, Bool.or_eq_true, beq_iff_eq, beq_iff_eq,
    Bool.not_eq_true', hasProperty_eq_false, Option.any_eq_true]
  simp only [namesResourceGroup_iff]
  constructor
  · rintro ⟨hu, hc, hf, create, group, m, p, hcreate, hn⟩
    exact ⟨⟨⟨hc, hu⟩, hf⟩, create, hcreate, group, m, p, hn⟩
  · rintro ⟨⟨⟨hc, hu⟩, hf⟩, create, hcreate, group, m, p, hn⟩
    exact ⟨hu, hc, hf, create, group, m, p, hcreate, hn⟩

/-- The names of the extra accessors. -/
theorem mem_names_resourceExtras_iff {name : String} :
    name ∈ (client.resourceExtras r).map (·.name) ↔
      (name = "region" ∨ name = "regionName") ∧ r.TellsRegion ∨
        name = "resourceGroupName" ∧ client.TellsGroup r := by
  rw [resourceExtras, List.map_append, List.mem_append, tellsRegion_iff, tellsGroup_iff]
  apply or_congr
  · unfold regionAccessors
    split <;> simp_all
  · unfold groupAccessor
    dsimp only
    split <;> simp_all

/-- Accessors of one resource never share a name. -/
theorem nodup_names_resourceExtras (client : Client) (r : Resource) :
    ((client.resourceExtras r).map (·.name)).Nodup := by
  unfold resourceExtras regionAccessors groupAccessor
  dsimp only
  split <;> split <;> decide

/-- Extra methods are not looked at when extra methods are made. -/
theorem resourceExtras_addExtras (client : Client) (r : Resource) (extras : List ExtraMethod) :
    client.addExtras.resourceExtras { r with extraMethods := extras } = client.resourceExtras r := by
  have hn : client.addExtras.namesResourceGroup = client.namesResourceGroup := by
    funext create
    unfold namesResourceGroup fullMethod?
    rw [references_addExtras]
  unfold resourceExtras groupAccessor
  rw [hn]
  rfl

/-- Classification adds no extra methods to resources. -/
theorem extraMethods_resources_classifyEach (client : Client) (trials : List Trial) :
    (client.classifyEach trials).resources.map (·.extraMethods) =
      client.resources.map (·.extraMethods) := by
  unfold classifyEach
  induction trials generalizing client with
  | nil => rfl
  | cons trial rest ih =>
    rw [List.foldl_cons, ih, value_classify]
    apply Indexed.map_mapIdx_patch_of_eq
    exact fun f r => rfl

end Client

namespace Assembly

/-- Resources of a service have their accessors as extra methods, and no others. -/
theorem extraMethods_of_resource (a : Assembly) (service : Service) {r : Resource}
    (hr : r ∈ (a.client service).value.resources) :
    r.extraMethods = (a.client service).value.resourceExtras r := by
  cases hl : a.settings.fluentLite with
  | false =>
    rw [value_client_of_full service hl] at hr
    obtain ⟨schema, _, rfl⟩ := List.mem_map.mp hr
    rfl
  | true =>
    rw [a.value_client service hl] at hr ⊢
    obtain ⟨before, hbefore, rfl⟩ := List.mem_map.mp hr
    have hnone : before.extraMethods ∈
        (a.unclassified service).resources.map (·.extraMethods) := by
      rw [← Client.extraMethods_resources_classifyEach]
      exact List.mem_map_of_mem hbefore
    obtain ⟨start, hstart, he⟩ := List.mem_map.mp hnone
    obtain ⟨schema, _, rfl⟩ := List.mem_map.mp hstart
    change [] = before.extraMethods at he
    rw [Client.resourceExtras_addExtras, ← he, List.nil_append]

/-- In the client of a service, the extra accessors of a resource have names of their own. None but
`regionName` may have the name of a property, and one has exactly if the region can be told and a
property is called like that. The resource group has an accessor exactly if it can be told. -/
theorem accessors_apart_iff (a : Assembly) (service : Service) {r : Resource}
    (hr : r ∈ (a.client service).value.resources) :
    let client := (a.client service).value
    (r.extraMethods.map (·.name)).Nodup ∧
      (∀ e ∈ r.extraMethods, ∀ p ∈ r.properties, p.name = e.name → e.name = "regionName") ∧
      ((∀ e ∈ r.extraMethods, ∀ p ∈ r.properties, p.name ≠ e.name) ↔
        ¬ (r.TellsRegion ∧ ∃ p ∈ r.properties, p.name = "regionName")) ∧
      ("resourceGroupName" ∈ r.extraMethods.map (·.name) ↔ client.TellsGroup r) := by
  intro client
  have he := a.extraMethods_of_resource service hr
  have hname {e : ExtraMethod} (h : e ∈ r.extraMethods) :
      (e.name = "region" ∨ e.name = "regionName") ∧ r.TellsRegion ∨
        e.name = "resourceGroupName" ∧ client.TellsGroup r := by
    rw [he] at h
    exact Client.mem_names_resourceExtras_iff.mp (List.mem_map_of_mem h)
  have honly : ∀ e ∈ r.extraMethods, ∀ p ∈ r.properties, p.name = e.name →
      e.name = "regionName" ∧ r.TellsRegion := by
    intro e h p hp hpe
    rcases hname h with ⟨hn | hn, ht⟩ | ⟨hn, ht⟩
    · exact absurd (hpe.trans hn) (ht.free p hp)
    · exact ⟨hn, ht⟩
    · exact absurd (hpe.trans hn) (ht.free p hp)
  refine ⟨?_, fun e h p hp hpe => (honly e h p hp hpe).1, ?_, ?_⟩
  · rw [he]
    exact client.nodup_names_resourceExtras r
  · constructor
    · rintro h ⟨ht, p, hp, hpn⟩
      have hmem : "regionName" ∈ r.extraMethods.map (·.name) := by
        rw [he, Client.mem_names_resourceExtras_iff]
        exact .inl ⟨.inr rfl, ht⟩
      obtain ⟨e, hmem, hen⟩ := List.mem_map.mp hmem
      exact h e hmem p hp (hpn.trans hen.symm)
    · intro h e hmem p hp hpe
      obtain ⟨hen, ht⟩ := honly e hmem p hp hpe
      exact h ⟨ht, p, hp, hpe.trans hen⟩
  · rw [he, Client.mem_names_resourceExtras_iff]
    simp [client]

end Assembly

/-! ### Tools that know the name of their region -/

namespace Workshop

/-- Tools lie somewhere, and a property of theirs is the name of the region. Callers name the group
and the tool when they create one. -/
def regional : Service where
  name := "Workshop"
  schemas :=
    [{ identified "ToolInner" with
        properties := (identified "ToolInner").properties ++
          ["location", "regionName"].map
            fun name => ⟨name, name, .string, false, false, false, none⟩ }]
  groups :=
    [⟨"Tools",
      [operation "createOrUpdate" .put toolUrl
          [⟨"group", "G", .path, .string, true, false, false⟩,
            ⟨"tool", "t", .path, .string, true, false, false⟩, body "ToolInner"] "ToolInner",
        operation "update" .patch toolUrl [body "ToolInner"] "ToolInner"]⟩]

/-- A property that is itself called `regionName` stands beside the accessor of that name. -/
theorem exists_regional :
    ∃ r ∈ ((Assembly.fresh .standard).client regional).value.resources,
      (∃ p ∈ r.properties, p.name = "regionName") ∧
        (∃ e ∈ r.extraMethods, e.name = "regionName") ∧
        "resourceGroupName" ∈ r.extraMethods.map (·.name) := by
  have hfound : ((Assembly.fresh .standard).client regional).value.resources.map (fun r =>
      (r.properties.map (·.name), r.extraMethods.map (·.name))) =
      [(["id", "name", "type", "location", "regionName"],
        ["region", "regionName", "resourceGroupName"])] := by
    decide +kernel
  obtain ⟨r, hr, he⟩ := List.mem_map.mp (List.mem_of_mem_head? (congrArg List.head? hfound))
  obtain ⟨hproperties, hextras⟩ := Prod.mk.inj he
  refine ⟨r, hr, List.mem_map.mp ?_, List.mem_map.mp ?_, ?_⟩
  · rw [hproperties]; decide
  · rw [hextras]; decide
  · rw [hextras]; decide

end Workshop

theorem accessors_in_workshop :
    let client := ((Assembly.fresh .standard).client Workshop.regional).value
    ∃ r ∈ client.resources, (r.extraMethods.map (·.name)).Nodup ∧
      (∀ e ∈ r.extraMethods, ∀ p ∈ r.properties, p.name = e.name → e.name = "regionName") ∧
      r.TellsRegion ∧ client.TellsGroup r := by
  intro client
  obtain ⟨r, hr, ⟨p, hp, hpn⟩, ⟨e, he, hen⟩, hmem⟩ := Workshop.exists_regional
  obtain ⟨hnodup, honly, hapart, hgroup⟩ :=
    Assembly.accessors_apart_iff (.fresh .standard) Workshop.regional hr
  refine ⟨r, hr, hnodup, honly, ?_, hgroup.mp hmem⟩
  by_contra hn
  exact hapart.mpr (fun h => hn h.1) e he p hp (hpn.trans hen.symm)

/-- The accessor of the region's name hides the property of that name. -/
theorem property_hidden_in_workshop :
    let client := ((Assembly.fresh .standard).client Workshop.regional).value
    ∃ r ∈ client.resources, ∃ e ∈ r.extraMethods, ∃ p ∈ r.properties, e.name = p.name := by
  intro client
  obtain ⟨r, hr, ⟨p, hp, hpn⟩, ⟨e, he, hen⟩, _⟩ := Workshop.exists_regional
  exact ⟨r, hr, e, he, p, hp, hen.trans hpn.symm⟩

end Lifecycle
