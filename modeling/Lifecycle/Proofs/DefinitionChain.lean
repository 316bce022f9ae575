import Mathlib.Data.List.Count
import Lifecycle.Proofs.BodyProperties
import Lifecycle.Proofs.Overloads

/-!
# The chain of a definition

The definition of a created resource starts with a blank stage. Up to the stage that creates the
resource lead, in this order, a location, the parent and all other required properties; what is
optional follows, properties before parameters. Each property that callers may set has one stage,
and each parameter they send in a header or the query has one.
-/
namespace Lifecycle

namespace Stage

def parameterStages : List Stage → List Parameter → List Stage
  | _, [] => []
  | others, p :: rest =>
    ofParameter others p :: parameterStages (others ++ [ofParameter others p]) rest

theorem addParameters_eq_append (others : List Stage) (parameters : List Parameter) :
    addParameters others parameters = others ++ parameterStages others parameters := by
  induction parameters generalizing others with
  | nil => rw [addParameters, parameterStages, List.append_nil]
  | cons p rest ih => rw [addParameters, parameterStages, ih, List.append_assoc]; rfl

theorem kind_parameterStages (others : List Stage) (parameters : List Parameter) :
    (parameterStages others parameters).map (·.kind) = parameters.map .parameter := by
  induction parameters generalizing others with
  | nil => rfl
  | cons p rest ih => rw [parameterStages, List.map_cons, List.map_cons, ih]; rfl

theorem mandatory_of_mem_parameterStages {others : List Stage} {parameters : List Parameter}
    {s : Stage} (h : s ∈ parameterStages others parameters) : s.mandatory = false := by
  induction parameters generalizing others with
  | nil => cases h
  | cons p rest ih =>
    rcases List.mem_cons.mp h with rfl | h
    · rfl
    · exact ih h

theorem kind_map_ofProperty (all : List Property) (mandatory : Bool) (properties : List Property) :
    (properties.map (ofProperty all mandatory)).map (·.kind) = properties.map .property := by
  rw [List.map_map]
  rfl

end Stage

/-! ### The stages one after the other -/

namespace Client

/-- All stages that precede the headers and queries, then those. -/
theorem value_definitionStages {client : Client} {r : Resource} {create : Binding}
    (hc : r.create = some create) :
    (client.definitionStages r).value = client.stagesBeforeSide r create ++
      Stage.parameterStages (client.stagesBeforeSide r create) (client.sideParameters create) := by
  unfold definitionStages
  rw [hc, ← Stage.addParameters_eq_append]
  rfl

theorem sideParameters_eq (client : Client) (b : Binding) :
    client.sideParameters b = (client.fullMethod? b).elim [] fun m =>
      m.parameters.filter fun p => p.location == .header || p.location == .query := by
  unfold sideParameters
  cases client.fullMethod? b <;> rfl

/-- The location that comes before the parent, if the first of some properties is one. -/
def frontLocation? (r : Resource) (properties : List Property) : Option Property :=
  properties.head?.filter fun p => hasLocation r.properties && p.name == "location"

theorem splitLocation_fst (r : Resource) (properties : List Property) :
    (splitLocation r properties).1 = (frontLocation? r properties).toList := by
  cases properties with
  | nil => rfl
  | cons p rest =>
    rw [splitLocation, frontLocation?, List.head?_cons, Option.filter_some]
    split <;> rfl

/-- Splitting off the location neither drops nor moves a property. -/
theorem splitLocation_append (r : Resource) (properties : List Property) :
    (splitLocation r properties).1 ++ (splitLocation r properties).2 = properties := by
  cases properties with
  | nil => rfl
  | cons p rest =>
    rw [splitLocation]
    split <;> rfl

theorem isSome_frontLocation? (r : Resource) (properties : List Property) :
    (frontLocation? r properties).isSome =
      (hasLocation r.properties && properties.head?.any (·.name == "location")) := by
  rw [frontLocation?, Option.isSome_filter]
  cases hasLocation r.properties with
  | false => cases properties.head? <;> rfl
  | true => simp only [Bool.true_and]

theorem name_of_frontLocation? {r : Resource} {properties : List Property} {p : Property}
    (h : p ∈ frontLocation? r properties) : p.name = "location" := by
  have hp := (Option.filter_eq_some_iff.mp h).2
  exact eq_of_beq (Bool.and_eq_true_iff.mp hp).2

end Client

theorem hasLocation_iff {properties : List Property} :
    hasLocation properties = true ↔ ∃ p ∈ properties, p.name = "location" ∧ p.type = .string := by
  simp [hasLocation]

theorem Category.isSome_parentStage?_iff {category : Category} (h : category ≠ .immutable) :
    category.parentStage?.isSome = true ↔ category ≠ .subscriptionAsParent := by
  cases category <;> simp [parentStage?] at h ⊢

/-! ### The parts of a definition -/

/-- The stages of a definition, by what they are there for. -/
structure DefinitionParts where
  location : Option Stage
  parent : Option Stage
  /-- the other required properties -/
  required : List Stage
  optional : List Stage
  /-- parameters sent in headers and the query -/
  side : List Stage

namespace DefinitionParts

/-- The chain that leads to the create. -/
def front (d : DefinitionParts) : List Stage :=
  [.blank] ++ d.location.toList ++ d.parent.toList ++ d.required ++ [.create]

/-- What may be added before the resource is created. -/
def back (d : DefinitionParts) : List Stage :=
  d.optional ++ d.side

def stages (d : DefinitionParts) : List Stage :=
  d.front ++ d.back

/-- The parts define a resource with some properties that callers may set, and some parameters. -/
structure Defines (d : DefinitionParts) (r : Resource) (properties : List Property)
    (side : List Parameter) : Prop where
  mandatory_front : ∀ s ∈ d.front, s.mandatory = true
  optional_back : ∀ s ∈ d.back, s.mandatory = false
  parent_isSome_iff : d.parent.isSome = true ↔ r.category ≠ .subscriptionAsParent
  parent_kind : ∀ s ∈ d.parent, ∃ name parameters, s.kind = .parent name parameters
  location_isSome_iff : d.location.isSome = true ↔
    (∃ p ∈ r.properties, p.name = "location" ∧ p.type = .string) ∧
      ∃ p ∈ properties, p.name = "location" ∧ p.required = true
  location_kind : ∀ s ∈ d.location, ∃ p, s.kind = .property p ∧ p.name = "location"
  required_kinds : (d.location.toList ++ d.required).map (·.kind) =
    (stageOrder (properties.filter (·.required))).map .property
  optional_kinds : d.optional.map (·.kind) =
    (stageOrder (properties.filter (!·.required))).map .property
  side_kinds : d.side.map (·.kind) = side.map .parameter

namespace Defines

variable {d : DefinitionParts} {r : Resource} {properties : List Property} {side : List Parameter}

/-- Stages of one kind are in the parts where that kind is set. -/
theorem count_kind (d : DefinitionParts) (k : StageKind) (hb : k ≠ .blank) (hc : k ≠ .create) :
    (d.stages.map (·.kind)).count k =
      (d.parent.toList.map (·.kind)).count k +
      ((d.location.toList ++ d.required).map (·.kind)).count k +
      (d.optional.map (·.kind)).count k + (d.side.map (·.kind)).count k := by
  have hblank : [Stage.blank.kind].count k = 0 :=
    List.count_eq_zero.mpr (by simpa [Stage.blank] using hb)
  have hcreate : [Stage.create.kind].count k = 0 :=
    List.count_eq_zero.mpr (by simpa [Stage.create] using hc)
  simp only [stages, front, back, List.map_append, List.count_append, List.map_cons, List.map_nil,
    hblank, hcreate]
  omega

theorem count_parent (h : d.Defines r properties side) {k : StageKind}
    (hk : ∀ name parameters, k ≠ .parent name parameters) :
    (d.parent.toList.map (·.kind)).count k = 0 := by
  rw [List.count_eq_zero, List.mem_map]
  rintro ⟨s, hs, rfl⟩
  obtain ⟨name, parameters, he⟩ := h.parent_kind s (Option.mem_toList.mp hs)
  exact hk name parameters he

/-- A property is set as often as it is among those that callers may set. -/
theorem count_property (h : d.Defines r properties side) (p : Property) :
    (d.stages.map (·.kind)).count (.property p) = properties.count p := by
  have hinj : Function.Injective StageKind.property := fun _ _ => StageKind.property.inj
  have hside : (side.map StageKind.parameter).count (.property p) = 0 := by
    rw [List.count_eq_zero, List.mem_map]
    rintro ⟨q, _, hq⟩
    cases hq
  have hparent := h.count_parent (k := .property p) nofun
  rw [count_kind d (.property p) nofun nofun, hparent, h.required_kinds, h.optional_kinds,
    h.side_kinds, hside, List.count_map_of_injective _ _ hinj, List.count_map_of_injective _ _ hinj,
    (perm_stageOrder _).count_eq, (perm_stageOrder _).count_eq, Nat.zero_add, Nat.add_zero,
    ← List.count_append]
  exact (List.filter_append_perm _ _).count_eq p

/-- A parameter is set as often as it is among those sent in headers and the query. -/
theorem count_parameter (h : d.Defines r properties side) (p : Parameter) :
    (d.stages.map (·.kind)).count (.parameter p) = side.count p := by
  have hinj : Function.Injective StageKind.parameter := fun _ _ => StageKind.parameter.inj
  have hproperties (qs : List Property) : (qs.map StageKind.property).count (.parameter p) = 0 := by
    rw [List.count_eq_zero, List.mem_map]
    rintro ⟨q, _, hq⟩
    cases hq
  have hparent := h.count_parent (k := .parameter p) nofun
  rw [count_kind d (.parameter p) nofun nofun, hparent, h.required_kinds, h.optional_kinds,
    h.side_kinds, hproperties, hproperties, List.count_map_of_injective _ _ hinj]
  omega

/-- Up to the create only required properties are set, and after it only others. -/
theorem mandatory_eq_required (h : d.Defines r properties side) {s : Stage} (hs : s ∈ d.stages)
    {p : Property} (hk : s.kind = .property p) : s.mandatory = p.required := by
  have hof {part : List Stage} {keep : Property → Bool} (hmem : s ∈ part)
      (hkinds : part.map (·.kind) = (stageOrder (properties.filter keep)).map .property) :
      keep p = true := by
    have hp : StageKind.property p ∈ (stageOrder (properties.filter keep)).map .property :=
      hkinds ▸ hk ▸ List.mem_map_of_mem hmem
    obtain ⟨q, hq, he⟩ := List.mem_map.mp hp
    obtain rfl := StageKind.property.inj he
    exact (List.mem_filter.mp ((perm_stageOrder _).mem_iff.mp hq)).2
  rcases List.mem_append.mp hs with hfront | hback
  · rw [h.mandatory_front s hfront]
    simp only [front, List.mem_append, List.mem_singleton, Option.mem_toList] at hfront
    rcases hfront with (((rfl | hl) | hp) | hr) | rfl
    · cases hk
    · exact (hof (List.mem_append_left _ (Option.mem_toList.mpr hl)) h.required_kinds).symm
    · obtain ⟨name, parameters, he⟩ := h.parent_kind s hp
      rw [he] at hk
      cases hk
    · exact (hof (List.mem_append_right _ hr) h.required_kinds).symm
    · cases hk
  · rw [h.optional_back s hback]
    rcases List.mem_append.mp hback with ho | hside
    · exact (by simpa using hof ho h.optional_kinds : p.required = false).symm
    · have hp : StageKind.property p ∈ side.map .parameter :=
        h.side_kinds ▸ hk ▸ List.mem_map_of_mem hside
      obtain ⟨q, _, he⟩ := List.mem_map.mp hp
      cases he

end Defines

end DefinitionParts

namespace Client

variable {client : Client} {r : Resource} {create : Binding}

/-- The stages of a definition in their parts. -/
def parts (client : Client) (r : Resource) (create : Binding) : DefinitionParts :=
  let properties := client.settableProperties r create
  let side := client.sideParameters create
  let required := properties.filter (·.required)
  { location := (frontLocation? r required).map (.ofProperty properties true)
    parent := client.parentStage r create properties side
    required := (splitLocation r required).2.map (.ofProperty properties true)
    optional := (properties.filter (!·.required)).map (.ofProperty properties false)
    side := Stage.parameterStages (client.stagesBeforeSide r create) side }

theorem stagesBeforeSide_eq (client : Client) (r : Resource) (create : Binding) :
    client.stagesBeforeSide r create =
      (client.parts r create).front ++ (client.parts r create).optional := by
  unfold stagesBeforeSide
  dsimp only
  rw [splitLocation_fst, ← Option.toList_map]
  rfl

theorem value_definitionStages_eq_parts (hc : r.create = some create) :
    (client.definitionStages r).value = (client.parts r create).stages := by
  rw [value_definitionStages hc, DefinitionParts.stages, DefinitionParts.back, ← List.append_assoc,
    ← stagesBeforeSide_eq]
  rfl

theorem of_mem_location {s : Stage} (h : s ∈ (client.parts r create).location) :
    s.mandatory = true ∧ ∃ p, s.kind = .property p ∧ p.name = "location" := by
  obtain ⟨p, hp, rfl⟩ := Option.map_eq_some_iff.mp h
  exact ⟨rfl, p, rfl, name_of_frontLocation? hp⟩

theorem of_mem_parent {s : Stage} (h : s ∈ (client.parts r create).parent) :
    s.mandatory = true ∧ ∃ name parameters, s.kind = .parent name parameters := by
  obtain ⟨base, _, rfl⟩ := Option.map_eq_some_iff.mp h
  exact ⟨rfl, _, _, rfl⟩

theorem mandatory_of_mem_front {s : Stage} (h : s ∈ (client.parts r create).front) :
    s.mandatory = true := by
  simp only [DefinitionParts.front, List.mem_append, List.mem_singleton, Option.mem_toList] at h
  rcases h with (((rfl | hl) | hp) | hr) | rfl
  · rfl
  · exact (of_mem_location hl).1
  · exact (of_mem_parent hp).1
  · obtain ⟨p, _, rfl⟩ := List.mem_map.mp hr
    rfl
  · rfl

theorem mandatory_of_mem_back {s : Stage} (h : s ∈ (client.parts r create).back) :
    s.mandatory = false := by
  rcases List.mem_append.mp h with ho | hside
  · obtain ⟨p, _, rfl⟩ := List.mem_map.mp ho
    rfl
  · exact Stage.mandatory_of_mem_parameterStages hside

/-- Location and required stages together take the required properties in their order. -/
theorem kinds_required (client : Client) (r : Resource) (create : Binding) :
    ((client.parts r create).location.toList ++ (client.parts r create).required).map (·.kind) =
      ((client.settableProperties r create).filter (·.required)).map .property := by
  unfold parts
  dsimp only
  rw [Option.toList_map, ← List.map_append, ← splitLocation_fst, splitLocation_append,
    Stage.kind_map_ofProperty]

/-- The parts of a definition set the properties of the body that callers may set. -/
theorem defines_parts {properties : List Property} (hk : r.category ≠ .immutable)
    (hp : client.settableProperties r create = stageOrder properties) :
    (client.parts r create).Defines r properties (client.sideParameters create) where
  mandatory_front _ := mandatory_of_mem_front
  optional_back _ := mandatory_of_mem_back
  parent_isSome_iff := by
    rw [← Category.isSome_parentStage?_iff hk]
    exact Bool.eq_iff_iff.mp Option.isSome_map
  parent_kind _ h := (of_mem_parent h).2
  location_isSome_iff := by
    have hl : (client.parts r create).location.isSome =
        (frontLocation? r ((client.settableProperties r create).filter (·.required))).isSome :=
      Option.isSome_map
    rw [hl, isSome_frontLocation?, hp, filter_stageOrder, any_head?_stageOrder, Bool.and_eq_true,
      hasLocation_iff]
    simp only [List.any_filter, List.any_eq_true, Bool.and_eq_true, beq_iff_eq, and_comm]
  location_kind _ h := (of_mem_location h).2
  required_kinds := by rw [kinds_required, hp, filter_stageOrder]
  optional_kinds := by
    rw [← filter_stageOrder, ← hp]
    exact Stage.kind_map_ofProperty _ _ _
  side_kinds := Stage.kind_parameterStages _ _

end Client

/-- A resource is defined stage by stage, with a schema for the body of its create. -/
structure Client.DefinedWith (client : Client) (r : Resource) (create : Binding) (schema : Schema)
    (d : DefinitionParts) : Prop where
  body : create.bodySchema = some schema.name
  known : client.schema? schema.name = some schema
  stages : (client.definitionStages r).value = d.stages
  defines : d.Defines r ((mergedProperties client.schemas schema).filter (·.settable))
    ((client.fullMethod? create).elim [] fun m =>
      m.parameters.filter fun p => p.location == .header || p.location == .query)
  /-- of each name the nearest property is set, if callers may, and nothing else -/
  properties_once : ∀ p, (d.stages.map (·.kind)).count (.property p) =
    if nearest? (schema :: ancestors client.schemas schema) p.name = some p ∧ p.settable = true
    then 1 else 0
  parameters_once : ∀ p, (d.stages.map (·.kind)).count (.parameter p) =
    ((client.fullMethod? create).elim [] fun m =>
      m.parameters.filter fun p => p.location == .header || p.location == .query).count p
  mandatory_iff : ∀ s ∈ d.stages, ∀ p, s.kind = .property p → s.mandatory = p.required

/-- A create comes with a category, so no created resource of a service is immutable. -/
theorem Assembly.category_of_create (a : Assembly) (service : Service) {i : Nat} {r : Resource}
    {create : Binding} (hr : (a.client service).value.resources[i]? = some r)
    (hc : r.create = some create) : r.category ≠ .immutable := by
  intro h
  have hn := ((a.consistent_client service).coherent i r hr).immutable_iff.mp h
  rw [hc] at hn
  cases hn

/-- The definition of each created resource of a service goes through a location, the parent, the
other required properties, the create, optional properties and parameters. -/
theorem Assembly.definedWith_of_create (a : Assembly) (service : Service) {i : Nat} {r : Resource}
    {create : Binding} (hr : (a.client service).value.resources[i]? = some r)
    (hc : r.create = some create) :
    ∃ schema d, (a.client service).value.DefinedWith r create schema d := by
  let client := (a.client service).value
  obtain ⟨schema, hbody, hknown, hproperties⟩ := a.bodyProperties_create service hr hc
  have hk := a.category_of_create service hr hc
  have hd := Client.defines_parts hk (Client.settableProperties_eq hproperties)
  rw [Client.sideParameters_eq] at hd
  refine ⟨schema, client.parts r create, hbody, hknown, client.value_definitionStages_eq_parts hc,
    hd, ?_, hd.count_parameter, fun s hs p => hd.mandatory_eq_required hs⟩
  intro p
  have hnodup : (mergedProperties client.schemas schema).Nodup :=
    (nodup_names_mergedProperties _ _).of_map _
  rw [hd.count_property, count_filter_of_nodup hnodup]
  exact if_congr (and_congr_left' mem_mergedProperties_iff) rfl rfl

namespace Workshop

/-- Tools have a place, which they share with other goods, a size and a note that cannot be set. -/
def furnished : Service where
  name := "Workshop"
  schemas :=
    [⟨"Goods", none, ["ToolInner"],
        [⟨"location", "location", .string, true, false, false, none⟩,
          ⟨"note", "note", .string, true, false, false, none⟩]⟩,
      { identified "ToolInner" with
        parent := some "Goods"
        properties := (identified "ToolInner").properties ++
          [⟨"size", "size", .integer, true, false, false, none⟩,
            ⟨"tags", "tags", .map .string, false, false, false, none⟩,
            ⟨"note", "note", .string, true, true, false, none⟩] }]
  groups :=
    [⟨"Tools",
      [operation "createOrUpdate" .put toolUrl
        [⟨"group", "g", .path, .string, true, false, false⟩,
          ⟨"tool", "t", .path, .string, true, false, false⟩, body "ToolInner",
          ⟨"reason", "reason", .query, .string, false, false, false⟩] "ToolInner"]⟩]

end Workshop

theorem definedWith_in_workshop :
    let client := ((Assembly.fresh .standard).client Workshop.furnished).value
    let create : Binding := ⟨0, 0, ⟨Workshop.toolUrl⟩, "createOrUpdate", some "ToolInner", [0, 1]⟩
    ∃ r, client.resources[0]? = some r ∧ r.create = some create ∧
      (client.definitionStages r).value.map (·.name) = ["Blank", "WithLocation",
        "WithResourceGroup", "WithSize", "Create", "WithTags", "WithName", "WithType",
        "WithReason"] ∧
      ∃ schema d, client.DefinedWith r create schema d := by
  intro client create
  have hfound : client.resources[0]?.map
      (fun r => (r.create, (client.definitionStages r).value.map (·.name))) =
      some (some create, ["Blank", "WithLocation", "WithResourceGroup", "WithSize", "Create",
        "WithTags", "WithName", "WithType", "WithReason"]) := by decide +kernel
  obtain ⟨r, hr, he⟩ := Option.map_eq_some_iff.mp hfound
  obtain ⟨hc, hnames⟩ := Prod.mk.inj he
  exact ⟨r, hr, hc, hnames,
    Assembly.definedWith_of_create (.fresh .standard) Workshop.furnished hr hc⟩

end Lifecycle
