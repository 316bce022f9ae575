import Lifecycle.Proofs.Settlement

/-!
# Sequences of classifications

A client is made by many trials of resources against collections, some collections several times.
The first trial that offers a create for a resource settles it, and no later one touches it again.
Associations only decide which trials come first.
-/
namespace Lifecycle

open Indexed

/-- A collection, and the resources to be tried against it. -/
structure Trial where
  collection : Nat
  candidates : List Nat

namespace Client

/-- The client after some trials. -/
def classifyEach (client : Client) (trials : List Trial) : Client :=
  trials.foldl (fun k trial => (k.classify trial.collection trial.candidates).value) client

/-- The first create that a trial offers for a resource. -/
def offerFor (client : Client) (i : Nat) (trial : Trial) : Option Creation :=
  (client.offers trial.collection trial.candidates Category.priority).find? (·.resource == i)

theorem outline_classifyEach (client : Client) (trials : List Trial) :
    (client.classifyEach trials).outline = client.outline := by
  unfold classifyEach
  induction trials generalizing client with
  | nil => rfl
  | cons trial rest ih => rw [List.foldl_cons, ih, outline_classify]

theorem offerFor_congr {a b : Client} (h : a.outline = b.outline) : a.offerFor = b.offerFor := by
  funext i trial
  unfold offerFor
  rw [offers_congr h]

/-- What one trial makes of a resource. -/
theorem getElem?_classify (client : Client) (trial : Trial) (i : Nat) :
    (client.classify trial.collection trial.candidates).value.resources[i]? =
      client.resources[i]?.map fun r =>
        if r.create.isSome then r else (client.offerFor i trial).elim r (client.settled · r) := by
  rw [value_classify]
  unfold settle
  rw [List.getElem?_mapIdx]
  cases hr : client.resources[i]? with
  | none => rfl
  | some r =>
    have hc : client.isCreated i = r.create.isSome := by rw [isCreated, hr]; rfl
    rw [Option.map_some, Option.map_some, patch, creations, find?_firsts, hc]
    by_cases h : r.create.isSome = true
    · rw [if_pos h, if_pos h]
      rfl
    · rw [if_neg h, if_neg h]
      rfl

/-- What a sequence of trials makes of a resource: the first offer counts. -/
theorem getElem?_classifyEach (client : Client) (trials : List Trial) (i : Nat) :
    (client.classifyEach trials).resources[i]? =
      client.resources[i]?.map fun r =>
        if r.create.isSome then r
        else (trials.findSome? (client.offerFor i)).elim r (client.settled · r) := by
  induction trials generalizing client with
  | nil =>
    change client.resources[i]? = client.resources[i]?.map fun r => if r.create.isSome then r else r
    cases client.resources[i]? with
    | none => rfl
    | some r => rw [Option.map_some, ite_self]
  | cons trial rest ih =>
    have ho := client.outline_classify trial.collection trial.candidates
    change ((client.classify trial.collection trial.candidates).value.classifyEach
      rest).resources[i]? = _
    rw [ih, getElem?_classify, offerFor_congr ho, settled_congr ho, Option.map_map]
    congr 1
    funext r
    rw [Function.comp_apply, List.findSome?_cons]
    by_cases h : r.create.isSome = true
    · rw [if_pos h, if_pos h, if_pos h]
    · rw [if_neg h, if_neg h]
      cases client.offerFor i trial with
      | none => rw [Option.elim_none, if_neg h]
      | some f => rfl

/-! ### The trials that make a client -/

/-- The trial that an association asks for. -/
def trialOf? (client : Client) (a : Association) : Option Trial := do
  let name ← a.collection
  let i ← client.resourceNamed? a.resource
  let collection ← client.collectionNamed? name
  pure ⟨collection, [i]⟩

/-- All trials by which a client is classified: those of associations, then one for each
collection. -/
def trials (client : Client) (associations : List Association) : List Trial :=
  associations.filterMap client.trialOf? ++
    client.collectionPositions.map fun collection => ⟨collection, client.resourcePositions⟩

theorem trialOf?_congr {a b : Client} (h : a.outline = b.outline) : a.trialOf? = b.trialOf? := by
  funext association
  unfold trialOf?
  simp only [← resourceNamed?_outline a, ← collectionNamed?_outline a, h, resourceNamed?_outline,
    collectionNamed?_outline]

theorem value_associate (client : Client) (association : Association) :
    (client.associate association).value =
      (client.trialOf? association).elim client
        fun trial => (client.classify trial.collection trial.candidates).value := by
  unfold associate trialOf?
  cases association.collection with
  | none => rfl
  | some name =>
    dsimp only
    cases client.resourceNamed? association.resource with
    | none => rfl
    | some i =>
      simp only [Option.bind_eq_bind, Option.bind_some]
      cases client.collectionNamed? name <;> rfl

theorem classifyEach_append (client : Client) (front back : List Trial) :
    client.classifyEach (front ++ back) = (client.classifyEach front).classifyEach back :=
  List.foldl_append

/-- Associations that find no collection or resource count for nothing. -/
theorem foldl_associate (client : Client) (associations : List Association) :
    associations.foldl (fun k association => (k.associate association).value) client =
      client.classifyEach (associations.filterMap client.trialOf?) := by
  -- associations are resolved by names, which no trial changes
  have h := foldl_eq_of_invariant (P := fun k : Client => k.outline = client.outline)
    (f := fun k association => (k.associate association).value)
    (g := fun k association => (client.trialOf? association).elim k
      fun trial => (k.classify trial.collection trial.candidates).value)
    (l := associations) ?_ rfl
  · rw [h.1, classifyEach, List.foldl_filterMap]
    congr 1
    funext k association
    cases client.trialOf? association <;> rfl
  · intro k hk association _
    rw [value_associate, trialOf?_congr hk]
    cases client.trialOf? association with
    | none => exact ⟨rfl, hk⟩
    | some trial => exact ⟨rfl, (k.outline_classify _ _).trans hk⟩

/-- The whole classification is a run of trials, those of associations first. -/
theorem value_classifyAll (client : Client) (associations : List Association) :
    (client.classifyAll associations).value = client.classifyEach (client.trials associations) := by
  let front := client.classifyEach (associations.filterMap client.trialOf?)
  have hf : (associations.foldlM associate client).value = front := by
    rw [Logged.value_foldlM, foldl_associate]
  have ho : front.outline = client.outline := client.outline_classifyEach _
  -- the full pass tries all resources each time, and their number does not change
  have hb := foldl_eq_of_invariant (P := fun k : Client => k.outline = client.outline)
    (f := fun k collection => (k.classify collection k.resourcePositions).value)
    (g := fun k collection => (k.classify collection client.resourcePositions).value)
    (l := client.collectionPositions) ?_ ho
  · unfold classifyAll
    rw [Logged.value_bind, hf, Logged.value_foldlM, collectionPositions_congr ho, hb.1, trials,
      classifyEach_append]
    unfold classifyEach
    rw [List.foldl_map]
    rfl
  · intro k hk collection _
    rw [resourcePositions_congr hk]
    exact ⟨rfl, (k.outline_classify _ _).trans hk⟩

end Client

/-- The client of a service is made by a sequence of trials, whatever the settings. -/
theorem Assembly.value_client (a : Assembly) (service : Service)
    (lite : a.settings.fluentLite = true) :
    (a.client service).value =
      ((a.unclassified service).classifyEach
        ((a.unclassified service).trials a.settings.associations)).addExtras := by
  unfold client
  dsimp only
  rw [if_pos lite, Logged.value_bind, Client.value_classifyAll]
  rfl

/-- Outside the lite mode nothing is classified. -/
theorem Assembly.value_client_of_full {a : Assembly} (service : Service)
    (full : a.settings.fluentLite = false) :
    (a.client service).value = a.unclassified service := by
  unfold client
  rw [full]
  rfl

/-- A client keeps the outline that it is made with. -/
theorem Assembly.outline_client (a : Assembly) (service : Service) :
    (a.client service).value.outline = a.unclassified service := by
  cases hl : a.settings.fluentLite with
  | true =>
    rw [a.value_client service hl, Client.outline_addExtras, Client.outline_classifyEach,
      outline_unclassified]
  | false => rw [value_client_of_full service hl, outline_unclassified]

/-- Nothing is bound to a resource before classification. -/
theorem Assembly.outline_of_mem_unclassified {a : Assembly} {service : Service} {r : Resource}
    (h : r ∈ (a.unclassified service).resources) : r.outline = r := by
  obtain ⟨schema, _, rfl⟩ := List.mem_map.mp h
  rfl

/-- What is bound, in whatever phase, was bound by a classification. -/
theorem Assembly.lite_of_binding? {a : Assembly} {service : Service} {i : Nat} {r : Resource}
    {phase : Phase} {b : Binding} (hr : (a.client service).value.resources[i]? = some r)
    (hb : r.binding? phase = some b) : a.settings.fluentLite = true := by
  cases hl : a.settings.fluentLite with
  | true => rfl
  | false =>
    rw [value_client_of_full service hl] at hr
    rw [← outline_of_mem_unclassified (List.mem_of_getElem? hr), r.binding?_outline] at hb
    cases hb

/-- A resource of the client of a service, extra methods apart, is settled by the first create that
some trial offers for it. -/
theorem Assembly.getElem?_client (a : Assembly) (service : Service)
    (lite : a.settings.fluentLite = true) (i : Nat) :
    let start := a.unclassified service
    let offered := (start.trials a.settings.associations).findSome? (start.offerFor i)
    (a.client service).value.resources[i]?.map ({ · with extraMethods := [] }) =
      start.resources[i]?.map fun r => offered.elim r (start.settled · r) := by
  intro start offered
  rw [a.value_client service lite]
  change (List.map _ _)[i]?.map _ = _
  rw [List.getElem?_map, Client.getElem?_classifyEach, Option.map_map, Option.map_map]
  change start.resources[i]?.map _ = _
  cases hr : start.resources[i]? with
  | none => rfl
  | some r =>
    have ho : r.outline = r := outline_of_mem_unclassified (List.mem_of_getElem? hr)
    have he : ({ r with extraMethods := [] } : Resource) = r := by
      rw [← ho]
      rfl
    have hc : r.create = none := by
      rw [← ho]
      rfl
    rw [Option.map_some, Option.map_some, Function.comp_apply, Function.comp_apply, hc]
    change some ({ offered.elim r (start.settled · r) with extraMethods := [] } : Resource) = _
    cases offered with
    | none => rw [Option.elim_none, he]
    | some f =>
      rw [Option.elim_some]
      change some (start.settled f { r with extraMethods := [] }) = _
      rw [he]

/-! ### A service to try things on -/

namespace Workshop

/-- A schema with no more than an identity. -/
def identified (name : String) : Schema where
  name := name
  parent := none
  derived := []
  properties := identityProperties.map fun name => ⟨name, name, .string, false, false, false, none⟩

/-- An operation that gives a schema back. -/
def operation (name : String) (verb : Verb) (url : String) (parameters : List Parameter)
    (schema : String) : Operation where
  name := name
  verb := verb
  url := url
  parameters := parameters
  returnType := some schema
  longRunning := false
  paging := none
  requestContentType := none
  expectedStatusCodes := []
  examples := []

def body (schema : String) : Parameter :=
  ⟨"body", "body", .body, .model schema, true, false, false⟩

def toolUrl : String :=
  "/subscriptions/\x7bs\x7d/resourceGroups/\x7bg\x7d/providers/Shop/tools/\x7bt\x7d"

def boxedToolUrl : String :=
  "/subscriptions/\x7bs\x7d/resourceGroups/\x7bg\x7d/providers/Shop/boxes/\x7bb\x7d/tools/\x7bt\x7d"

def partUrl : String :=
  "/subscriptions/\x7bs\x7d/providers/Shop/parts/\x7bp\x7d"

/-- Tools can be put in two places, of which the resource group counts; the first method that puts
them there sends what has no schema. -/
def service : Service where
  name := "Workshop"
  schemas := [identified "ToolInner", identified "PartInner"]
  groups :=
    [⟨"Tools",
      [operation "box" .put boxedToolUrl [body "ToolInner"] "ToolInner",
        operation "register" .put toolUrl [body "Unknown"] "ToolInner",
        operation "createOrUpdate" .put toolUrl [body "ToolInner"] "ToolInner",
        operation "replace" .patch toolUrl [body "Unknown"] "ToolInner",
        operation "get" .get toolUrl [] "ToolInner",
        operation "sharpen" .post (toolUrl ++ "/sharpen") [] "ToolInner"]⟩,
      ⟨"Parts",
        [operation "create" .put partUrl [body "PartInner"] "PartInner",
          operation "delete" .delete partUrl [] "PartInner"]⟩]

end Workshop

end Lifecycle
