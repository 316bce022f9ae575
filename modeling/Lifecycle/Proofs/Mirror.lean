import Mathlib.Logic.Equiv.Defs
import Lifecycle.Proofs.CreateChoice

/-!
# Clients that mirror each other

Classification reads little of a service: neither examples, content types, status codes and item
names of its operations, nor more of its properties than name and type. The gist of a client leaves
out all the rest. One client mirrors another under a renumbering of resources if its gist is that of
the other with the resources renumbered. Whatever is tried, mirrored clients stay mirrored, so what
is left out decides nothing, and resources can come in any order.
-/
namespace Lifecycle

open Indexed

/-! ### What classification reads -/

/-- An operation without its documentation, its content type and the details of its responses. -/
def Operation.gist (op : Operation) : Operation :=
  { op with
    paging := op.paging.map fun _ => ⟨""⟩
    requestContentType := none
    expectedStatusCodes := []
    examples := [] }

def Method.gist (m : Method) : Method :=
  { m with operation := m.operation.gist }

/-- A property by its name and its type. -/
def Property.gist (p : Property) : Property :=
  { p with
    serializedName := ""
    required := false
    readOnly := false
    constant := false
    description := none }

def Schema.gist (s : Schema) : Schema :=
  { s with properties := s.properties.map Property.gist }

def Resource.gist (r : Resource) : Resource :=
  { r with schema := r.schema.gist, properties := r.properties.map Property.gist }

def Collection.gist (c : Collection) : Collection :=
  { c with methods := c.methods.map Method.gist }

/-- What classification may read of a client. -/
def Client.gist (client : Client) : Client :=
  { client with
    schemas := client.schemas.map Schema.gist
    resources := client.resources.map Resource.gist
    collections := client.collections.map Collection.gist }

/-! ### Other numbers for resources -/

variable {ρ : Equiv.Perm Nat}

def Binding.renumber (ρ : Equiv.Perm Nat) (b : Binding) : Binding :=
  { b with resource := ρ b.resource }

def Actions.renumber (ρ : Equiv.Perm Nat) (a : Actions) : Actions :=
  { a with resource := ρ a.resource }

def Creation.renumber (ρ : Equiv.Perm Nat) (f : Creation) : Creation :=
  { f with binding := f.binding.renumber ρ }

/-- A resource that knows other resources, and itself, by other numbers. -/
def Resource.renumber (ρ : Equiv.Perm Nat) (r : Resource) : Resource :=
  { r with
    create := r.create.map (·.renumber ρ)
    update := r.update.map (·.renumber ρ)
    refresh := r.refresh.map (·.renumber ρ)
    delete := r.delete.map (·.renumber ρ)
    actions := r.actions.map (·.renumber ρ) }

def Collection.renumber (ρ : Equiv.Perm Nat) (c : Collection) : Collection :=
  { c with
    creates := c.creates.map ρ
    updates := c.updates.map ρ
    refreshes := c.refreshes.map ρ
    deletes := c.deletes.map ρ }

/-- The first entries of renamed keys are the renamed first entries. -/
theorem Indexed.firsts_map {α : Type} (key : α → Nat) (rename : α → α)
    (hk : ∀ x, key (rename x) = ρ (key x)) {taken taken' : Nat → Bool}
    (ht : ∀ i, taken' (ρ i) = taken i) (entries : List α) :
    firsts key taken' (entries.map rename) = (firsts key taken entries).map rename := by
  induction entries generalizing taken taken' with
  | nil => rfl
  | cons x rest ih =>
    rw [List.map_cons, firsts, firsts, hk, ht]
    split
    · exact ih ht
    · rw [List.map_cons]
      congr 1
      apply ih
      intro i
      rw [ht]
      congr 1
      exact beq_eq_beq.mpr ρ.injective.eq_iff

theorem Indexed.find?_map_key {α : Type} (key : α → Nat) (rename : α → α)
    (hk : ∀ x, key (rename x) = ρ (key x)) (changes : List α) (i : Nat) :
    (changes.map rename).find? (key · == ρ i) = (changes.find? (key · == i)).map rename := by
  rw [List.find?_map]
  congr 2
  funext x
  rw [Function.comp_apply, hk]
  exact beq_eq_beq.mpr ρ.injective.eq_iff

namespace Client

/-! ### One classification -/

/-- A client is what another one comes to with resources renumbered and no more than the gist. -/
structure Mirrors (ρ : Equiv.Perm Nat) (k k' : Client) : Prop where
  schema? : ∀ name, k'.schema? name = (k.schema? name).map Schema.gist
  resources : ∀ i, k'.resources[ρ i]? = k.resources[i]?.map fun r => (r.renumber ρ).gist
  collections : k'.collections = k.collections.map fun c => (c.renumber ρ).gist

/-- References are found by names, kinds and verbs, all of which the gist keeps. -/
theorem referencesTo_gist (methods : List Method) (name : String) :
    referencesTo (methods.map Method.gist) name = referencesTo methods name := by
  unfold referencesTo
  rw [List.zipIdx_map, List.filter_map, List.map_map]
  rfl

theorem needsIdentityOnly_gist (creates : List Method) (m : Method) :
    needsIdentityOnly (creates.map Method.gist) m.gist = needsIdentityOnly creates m := by
  unfold needsIdentityOnly
  simp only [List.all_map]
  rfl

namespace Mirrors

variable {k k' : Client} {candidates candidates' : List Nat}

theorem methods (h : Mirrors ρ k k') (collection : Nat) :
    k'.methods collection = (k.methods collection).map Method.gist := by
  unfold Client.methods
  rw [h.collections, List.getElem?_map]
  cases k.collections[collection]? <;> rfl

theorem references (h : Mirrors ρ k k') (b : Binding) :
    k'.references (b.renumber ρ) = (k.references b).map Method.gist := by
  unfold Client.references methodsAt
  dsimp only
  rw [List.map_filterMap]
  congr 1
  funext j
  rw [h.methods]
  exact List.getElem?_map

theorem isCreated (h : Mirrors ρ k k') (i : Nat) : k'.isCreated (ρ i) = k.isCreated i := by
  unfold Client.isCreated
  rw [h.resources]
  cases k.resources[i]? with
  | none => rfl
  | some r => exact Option.isSome_map

theorem hasProperty_gist (r : Resource) (name : String) :
    (r.renumber ρ).gist.hasProperty name = r.hasProperty name := by
  unfold Resource.hasProperty Resource.property? Resource.gist
  rw [List.find?_map, Option.isSome_map]
  rfl

theorem isCreatable_gist (r : Resource) : (r.renumber ρ).gist.isCreatable = r.isCreatable := by
  have h : (r.renumber ρ).gist.hasProperty = r.hasProperty := funext (hasProperty_gist r)
  rw [Resource.isCreatable, h]
  rfl

variable (hw : ∀ schema,
  k'.wrapperOf? candidates' schema = (k.wrapperOf? candidates schema).map ρ)

include hw

theorem target? (h : Mirrors ρ k k') (category : Category) (m : Method) :
    k'.target? candidates' category m.gist = (k.target? candidates category m).map ρ := by
  have hp : putsResource m.gist = putsResource m := rfl
  have hv : m.gist.returns = m.returns := rfl
  have hu : m.gist.url = m.url := rfl
  simp only [Client.target?, hp, hv, hu, Option.bind_eq_bind, Option.pure_def]
  cases putsResource m with
  | false => rfl
  | true =>
    cases m.returns.value? with
    | none => rfl
    | some schema =>
      simp only [Option.bind_some, hw]
      cases k.wrapperOf? candidates schema with
      | none => rfl
      | some i =>
        simp only [Option.bind_some, Option.map_some, h.resources]
        cases k.resources[i]? with
        | none => rfl
        | some r =>
          simp only [Option.bind_some, Option.map_some, isCreatable_gist]
          cases r.isCreatable && m.url.endsInParameter && category.fits m.url <;> rfl

theorem offer? (h : Mirrors ρ k k') (collection : Nat) (category : Category) (m : Method) :
    k'.offer? collection candidates' category m.gist =
      (k.offer? collection candidates category m).map (Creation.renumber ρ) := by
  have hb : m.gist.bodyType? = m.bodyType? := rfl
  simp only [Client.offer?, h.target? hw, hb, Option.bind_eq_bind, Option.pure_def]
  cases k.target? candidates category m with
  | none => rfl
  | some i =>
    cases m.bodyType? with
    | none => rfl
    | some type =>
      simp only [Option.bind_some, Option.map_some, h.schema?]
      cases k.schema? type <;> rfl

/-- Offers correspond one by one, in the same order. -/
theorem offers (h : Mirrors ρ k k') (collection : Nat) (categories : List Category) :
    k'.offers collection candidates' categories =
      (k.offers collection candidates categories).map (Creation.renumber ρ) := by
  unfold Client.offers
  rw [List.map_flatMap, h.methods]
  congr 1
  funext category
  rw [List.filterMap_map, List.map_filterMap]
  congr 1
  funext m
  exact h.offer? hw collection category m

theorem creations (h : Mirrors ρ k k') (collection : Nat) :
    k'.creations collection candidates' =
      (k.creations collection candidates).map (Creation.renumber ρ) := by
  unfold Client.creations
  rw [h.offers hw, firsts_map Creation.resource (Creation.renumber ρ) (fun _ => rfl) h.isCreated]

omit hw

theorem referred (h : Mirrors ρ k k') (b : Binding) :
    k'.referred (b.renumber ρ) = (k.referred b).renumber ρ := by
  unfold Client.referred
  rw [h.methods, referencesTo_gist]
  rfl

theorem carrier? (h : Mirrors ρ k k') (r : Resource) (create : Binding) (phase : Phase) :
    k'.carrier? (r.renumber ρ).gist (create.renumber ρ) phase =
      (k.carrier? r create phase).map Method.gist := by
  unfold Client.carrier?
  rw [List.map_findSome?]
  congr 1
  funext verb
  rw [h.methods, List.find?_map]
  congr 2
  funext m
  unfold carries
  rw [h.references, Function.comp_apply, needsIdentityOnly_gist]
  rfl

/-- What follows a create corresponds, the binding renumbered with its resource. -/
theorem follow (h : Mirrors ρ k k') (phase : Phase) (i : Nat) (r : Resource) (create : Binding) :
    k'.follow phase (ρ i) (r.renumber ρ).gist (create.renumber ρ) =
      (k.follow phase i r create).map (Binding.renumber ρ) := by
  unfold Client.follow
  rw [h.carrier?]
  cases k.carrier? r create phase with
  | none => rfl
  | some m =>
    have hb (body body' : Option Schema) (he : body'.map (·.name) = body.map (·.name)) :
        k'.bindingTo (ρ i) (create.renumber ρ) m.gist body' =
          (k.bindingTo i create m body).renumber ρ := by
      unfold bindingTo
      rw [h.methods, referencesTo_gist, he]
      rfl
    have ht : m.gist.bodyType? = m.bodyType? := rfl
    rw [Option.map_some, Option.bind_some, Option.bind_some, ht]
    split
    · cases m.bodyType? with
      | none => rfl
      | some type =>
        rw [Option.bind_some, Option.bind_some, h.schema?]
        cases k.schema? type with
        | none => rfl
        | some body => exact congrArg some (hb (some body) (some body.gist) rfl)
    · exact congrArg some (hb none none rfl)

theorem followed (h : Mirrors ρ k k') (phase : Phase) (f : Creation) :
    k'.followed phase (f.renumber ρ) = (k.followed phase f).map (Binding.renumber ρ) := by
  unfold Client.followed
  change k'.resources[ρ f.resource]?.bind _ = _
  rw [h.resources]
  cases k.resources[f.resource]? with
  | none => rfl
  | some r =>
    rw [Option.map_some, Option.bind_some, Option.bind_some, ← h.follow, ← h.referred]
    rfl

theorem actionsOn (h : Mirrors ρ k k') (i : Nat) (create : Binding) :
    k'.actionsOn (ρ i) (create.renumber ρ) = (k.actionsOn i create).map (Actions.renumber ρ) := by
  unfold Client.actionsOn
  dsimp only
  rw [h.methods, List.zipIdx_map, List.filter_map, List.isEmpty_map, List.map_map,
    apply_ite (Option.map (Actions.renumber ρ))]
  rfl

theorem settled (h : Mirrors ρ k k') (f : Creation) (r : Resource) :
    k'.settled (f.renumber ρ) (r.renumber ρ).gist = ((k.settled f r).renumber ρ).gist := by
  have hr : k'.referred (f.renumber ρ).binding = (k.referred f.binding).renumber ρ :=
    h.referred f.binding
  have ha : k'.actionsOn (f.renumber ρ).resource ((k.referred f.binding).renumber ρ) =
      (k.actionsOn f.resource (k.referred f.binding)).map (Actions.renumber ρ) :=
    h.actionsOn f.resource _
  unfold Client.settled Resource.gist Resource.renumber
  simp only [h.followed, hr, ha, Option.map_or]
  rfl

theorem listed (h : Mirrors ρ k k') (found : List Creation) (c : Collection) :
    k'.listed (found.map (Creation.renumber ρ)) (c.renumber ρ).gist =
      ((k.listed found c).renumber ρ).gist := by
  have hp (phase : Phase) : ((found.map (Creation.renumber ρ)).filter (k'.isFollowed phase)).map
      Creation.resource = (((found.filter (k.isFollowed phase)).map Creation.resource)).map ρ := by
    have hf : k'.isFollowed phase ∘ Creation.renumber ρ = k.isFollowed phase := by
      funext f
      unfold isFollowed
      rw [Function.comp_apply, h.followed, Option.isSome_map]
    rw [List.filter_map, hf, List.map_map, List.map_map]
    rfl
  unfold Client.listed Collection.gist Collection.renumber
  simp only [hp, List.map_append, List.map_map]
  rfl

/-- Settling mirrored creates keeps clients mirrored. -/
theorem settle (h : Mirrors ρ k k') (collection : Nat) (found : List Creation) :
    Mirrors ρ (k.settle collection found)
      (k'.settle collection (found.map (Creation.renumber ρ))) := by
  constructor
  · exact h.schema?
  · intro i
    unfold Client.settle
    rw [List.getElem?_mapIdx, List.getElem?_mapIdx, h.resources, Option.map_map, Option.map_map]
    congr 1
    funext r
    rw [Function.comp_apply, Function.comp_apply, patch, patch,
      find?_map_key Creation.resource (Creation.renumber ρ) fun _ => rfl]
    cases found.find? (·.resource == i) with
    | none => rfl
    | some f => exact h.settled f r
  · unfold Client.settle
    dsimp only
    rw [h.collections]
    apply List.ext_getElem?
    intro j
    simp only [List.getElem?_modify, List.getElem?_map]
    cases k.collections[j]? with
    | none => rfl
    | some c =>
      by_cases hj : collection = j
      · simp [hj, h.listed]
      · simp [hj]

/-- One classification keeps two clients in step. -/
theorem classify (h : Mirrors ρ k k')
    (hw : ∀ schema, k'.wrapperOf? candidates' schema = (k.wrapperOf? candidates schema).map ρ)
    (collection : Nat) :
    Mirrors ρ (k.classify collection candidates).value
      (k'.classify collection candidates').value := by
  rw [value_classify, value_classify, h.creations hw]
  exact h.settle collection _

end Mirrors

/-! ### Sequences of classifications -/

/-- Two trials in one collection, of candidates that lead to the same resources. -/
structure MirrorTrials (ρ : Equiv.Perm Nat) (k k' : Client) (trial trial' : Trial) : Prop where
  collection : trial'.collection = trial.collection
  leads : ∀ schema, k'.wrapperOf? trial'.candidates schema =
    (k.wrapperOf? trial.candidates schema).map ρ

theorem MirrorTrials.congr {a b a' b' : Client} {trial trial' : Trial}
    (h : MirrorTrials ρ a a' trial trial') (hb : b.outline = a.outline)
    (hb' : b'.outline = a'.outline) : MirrorTrials ρ b b' trial trial' := by
  refine ⟨h.collection, fun schema => ?_⟩
  rw [← wrapperOf?_outline b', hb', wrapperOf?_outline, ← wrapperOf?_outline b, hb,
    wrapperOf?_outline, h.leads]

namespace Mirrors

variable {k k' : Client}

theorem wraps (h : Mirrors ρ k k') (schema : String) (i : Nat) :
    k'.wraps schema (ρ i) = k.wraps schema i := by
  unfold Client.wraps
  rw [h.resources, Option.any_map]
  rfl

theorem collectionNamed? (h : Mirrors ρ k k') (name : String) :
    k'.collectionNamed? name = k.collectionNamed? name := by
  unfold Client.collectionNamed?
  rw [h.collections, List.findIdx?_map]
  rfl

/-- Of clients that find the same resources by name and by schema, all trials are mirrored. -/
theorem trials (h : Mirrors ρ k k')
    (hn : ∀ name, k'.resourceNamed? name = (k.resourceNamed? name).map ρ)
    (hl : ∀ schema, k'.wrapperOf? k'.resourcePositions schema =
      (k.wrapperOf? k.resourcePositions schema).map ρ) (associations : List Association) :
    List.Forall₂ (MirrorTrials ρ k k') (k.trials associations) (k'.trials associations) := by
  have hp : k'.collectionPositions = k.collectionPositions := by
    unfold collectionPositions
    rw [h.collections, List.length_map]
  refine List.rel_append ?_ ?_
  · induction associations with
    | nil => exact .nil
    | cons a rest ih =>
      have hc : k'.collectionOf? a = k.collectionOf? a := by
        unfold collectionOf?
        congr 1
        funext name
        exact h.collectionNamed? name
      have ht := k.trialOf?_eq a
      have ht' := k'.trialOf?_eq a
      rw [hn, hc] at ht'
      cases hi : k.resourceNamed? a.resource with
      | none =>
        rw [hi] at ht ht'
        rwa [List.filterMap_cons_none ht, List.filterMap_cons_none ht']
      | some i =>
        rw [hi] at ht ht'
        cases hj : k.collectionOf? a with
        | none =>
          rw [hj] at ht ht'
          rwa [List.filterMap_cons_none ht, List.filterMap_cons_none ht']
        | some collection =>
          rw [hj] at ht ht'
          rw [List.filterMap_cons_some ht, List.filterMap_cons_some ht']
          refine .cons ⟨rfl, fun schema => ?_⟩ ih
          rw [wrapperOf?_eq, wrapperOf?_eq, List.find?_singleton, List.find?_singleton, h.wraps]
          split <;> rfl
  · rw [hp, List.forall₂_map_left_iff, List.forall₂_map_right_iff, List.forall₂_same]
    exact fun _ _ => ⟨rfl, hl⟩

/-- Whatever is tried, mirrored clients stay mirrored. -/
theorem classifyEach (h : Mirrors ρ k k') {trials trials' : List Trial}
    (ht : List.Forall₂ (MirrorTrials ρ k k') trials trials') :
    Mirrors ρ (k.classifyEach trials) (k'.classifyEach trials') := by
  induction trials generalizing k k' trials' with
  | nil =>
    cases ht
    exact h
  | cons trial rest ih =>
    obtain _ | ⟨hfirst, hrest⟩ := ht
    rename_i trial' rest'
    have hc : Mirrors ρ (k.classify trial.collection trial.candidates).value
        (k'.classify trial'.collection trial'.candidates).value := by
      rw [hfirst.collection]
      exact h.classify hfirst.leads trial.collection
    exact ih hc (hrest.imp fun _ _ hm =>
      hm.congr (outline_classify _ _ _) (outline_classify _ _ _))

/-! ### Extra methods -/

theorem hasLocation_gist (properties : List Property) :
    hasLocation (properties.map Property.gist) = hasLocation properties := by
  unfold hasLocation
  rw [List.any_map]
  rfl

theorem regionAccessors_gist (r : Resource) :
    regionAccessors (r.renumber ρ).gist = regionAccessors r := by
  unfold regionAccessors
  rw [hasProperty_gist]
  change (if _ && hasLocation (r.properties.map Property.gist) && _ then _ else _) = _
  rw [hasLocation_gist]
  rfl

theorem namesResourceGroup (h : Mirrors ρ k k') (b : Binding) :
    k'.namesResourceGroup (b.renumber ρ) = k.namesResourceGroup b := by
  have hm : k'.fullMethod? (b.renumber ρ) = (k.fullMethod? b).map Method.gist := by
    unfold fullMethod?
    rw [h.references, List.find?_map]
    rfl
  have hu : (b.renumber ρ).url = b.url := rfl
  unfold Client.namesResourceGroup
  rw [hm, hu]
  cases b.url.parameters.find? (·.kind == .resourceGroup) with
  | none => rfl
  | some group => cases k.fullMethod? b <;> rfl

theorem resourceExtras (h : Mirrors ρ k k') (r : Resource) :
    k'.resourceExtras (r.renumber ρ).gist = k.resourceExtras r := by
  have hr : (r.renumber ρ).gist.create = r.create.map (·.renumber ρ) := rfl
  have hc : (r.renumber ρ).gist.create.any k'.namesResourceGroup =
      r.create.any k.namesResourceGroup := by
    rw [hr, Option.any_map]
    congr 1
    funext b
    exact h.namesResourceGroup b
  have hu : (r.renumber ρ).gist.update.isSome = r.update.isSome := Option.isSome_map
  unfold Client.resourceExtras groupAccessor
  rw [regionAccessors_gist, hasProperty_gist, hc, hu]
  rfl

theorem taken_gist (c : Collection) (name : String) :
    (c.renumber ρ).gist.methods.any (·.name == name) = c.methods.any (·.name == name) := by
  change (c.methods.map Method.gist).any _ = _
  rw [List.any_map]
  rfl

theorem fetchExtras (h : Mirrors ρ k k') (c : Collection) (r : Resource) :
    k'.fetchExtras (c.renumber ρ).gist (r.renumber ρ).gist = k.fetchExtras c r := by
  have hr : (r.renumber ρ).gist.refresh = r.refresh.map (·.renumber ρ) := rfl
  unfold Client.fetchExtras
  rw [hr]
  simp only [taken_gist]
  cases r.refresh with
  | none => rfl
  | some refresh =>
    simp only [Option.map_some, h.references, List.any_map]
    rfl

theorem deleteExtras (h : Mirrors ρ k k') (c : Collection) (r : Resource) :
    k'.deleteExtras (c.renumber ρ).gist (r.renumber ρ).gist = k.deleteExtras c r := by
  have hr : (r.renumber ρ).gist.delete = r.delete.map (·.renumber ρ) := rfl
  unfold Client.deleteExtras
  rw [hr]
  simp only [taken_gist]
  cases r.delete with
  | none => rfl
  | some delete =>
    simp only [Option.map_some, h.references, List.any_map]
    rfl

theorem collectionExtras (h : Mirrors ρ k k') (c : Collection) :
    k'.collectionExtras (c.renumber ρ).gist = k.collectionExtras c := by
  have hr (positions : List Nat) : (positions.map ρ).filterMap (k'.resources[·]?) =
      (positions.filterMap (k.resources[·]?)).map fun r => (r.renumber ρ).gist := by
    rw [List.filterMap_map, List.map_filterMap]
    congr 1
    funext i
    exact h.resources i
  unfold Client.collectionExtras
  dsimp only
  change ((c.refreshes.map ρ).filterMap _).flatMap _ ++
    ((c.deletes.map ρ).filterMap _).flatMap _ = _
  rw [hr, hr, List.flatMap_map, List.flatMap_map]
  simp only [h.fetchExtras, h.deleteExtras]

/-- Extra methods keep two clients in step. -/
theorem addExtras (h : Mirrors ρ k k') : Mirrors ρ k.addExtras k'.addExtras := by
  constructor
  · exact h.schema?
  · intro i
    unfold Client.addExtras
    dsimp only
    rw [List.getElem?_map, List.getElem?_map, h.resources, Option.map_map, Option.map_map]
    congr 1
    funext r
    rw [Function.comp_apply, Function.comp_apply, h.resourceExtras]
    rfl
  · unfold Client.addExtras
    dsimp only
    rw [h.collections, List.map_map, List.map_map]
    congr 1
    funext c
    rw [Function.comp_apply, Function.comp_apply, h.collectionExtras]
    rfl

end Mirrors

end Client

/-- Clients that start mirrored are mirrored in the end, whether or not they are classified. -/
theorem Assembly.mirrors_client {a : Assembly} {service service' : Service}
    (h : Client.Mirrors ρ (a.unclassified service) (a.unclassified service'))
    (hn : ∀ name, (a.unclassified service').resourceNamed? name =
      ((a.unclassified service).resourceNamed? name).map ρ)
    (hl : ∀ schema, (a.unclassified service').wrapperOf?
        (a.unclassified service').resourcePositions schema =
      ((a.unclassified service).wrapperOf?
        (a.unclassified service).resourcePositions schema).map ρ) :
    Client.Mirrors ρ (a.client service).value (a.client service').value := by
  cases lite : a.settings.fluentLite with
  | true =>
    rw [a.value_client service lite, a.value_client service' lite]
    exact (h.classifyEach (h.trials hn hl a.settings.associations)).addExtras
  | false =>
    unfold client
    rw [lite]
    exact h

end Lifecycle
