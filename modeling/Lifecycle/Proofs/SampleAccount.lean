import Lifecycle.Json.Writer
import Lifecycle.Proofs.Overloads
import Lifecycle.Proofs.SampleBook

/-!
# Each example becomes one sample

An example of an operation that no create and no update refers to becomes the sample of a call. An
example of a method that creates and updates a resource alike becomes the sample of a definition or
of an update, by its name, and never of both. The book of a collection holds these samples and no
others.
-/
namespace Lifecycle

/-- What is made of all entries that are not skipped, where nothing fails. -/
theorem map_filterMap_ite {α β : Type} (skip : α → Bool) {make : α → Option β}
    (h : ∀ x, (make x).isSome = true) (xs : List α) :
    ((xs.map fun x => if skip x then none else make x).filterMap id).map some =
      (xs.filter fun x => !skip x).map make := by
  induction xs with
  | nil => rfl
  | cons x rest ih =>
    obtain ⟨y, hy⟩ := Option.isSome_iff_exists.mp (h x)
    cases hs : skip x with
    | true => simpa [hs] using ih
    | false => simpa [hs, hy] using ih

namespace Client

variable {client : Client} {c : Collection} {r : Resource} {create update : Binding}

/-! ### Definitions and updates -/

theorem isSome_defineMethod (client : Client) (hc : r.create = some create) :
    (client.defineMethod r).value.isSome = true := by
  unfold defineMethod
  rw [hc]
  dsimp only
  rw [Logged.value_bind, Logged.value_bind]
  split <;> rfl

/-- A created resource has a sample of its definition for every example. -/
theorem isSome_create (client : Client) (hc : r.create = some create) (e : Example) (m : Method)
    (name : String) : (e.create client r m name).value.isSome = true := by
  obtain ⟨define, hd⟩ := Option.isSome_iff_exists.mp (client.isSome_defineMethod hc)
  unfold Example.create
  rw [Logged.value_bind, hd, hc]
  rfl

theorem isSome_update (client : Client) (hu : r.update = some update) (e : Example)
    (fetch m : Method) (name : String) : (e.update client r fetch m name).value.isSome = true := by
  unfold Example.update
  rw [hu]
  rfl

/-- All examples of a create become definitions, apart from those that are left to the update. -/
theorem value_createSamples (hc : r.create = some create) :
    (client.createSamples r).value.map some =
      ((examplesOf (client.references create)).filter fun x =>
        !(client.createsByUpdate r && speaksOfUpdate x.2.1)).map
          fun x => (x.2.2.create client r x.1 x.2.1).value := by
  have hs := map_filterMap_ite
    (fun x : Method × String × Example => client.createsByUpdate r && speaksOfUpdate x.2.1)
    (fun x => client.isSome_create hc x.2.2 x.1 x.2.1) (examplesOf (client.references create))
  rw [← hs]
  unfold createSamples
  rw [hc]
  dsimp only
  rw [Logged.value_bind, Logged.value_mapM, Logged.value_pure]
  congr 3
  funext x
  rw [apply_ite Logged.value]
  rfl

/-- If a resource can be fetched, all examples of its update become updates, apart from those that
are left to the create. -/
theorem value_updateSamples (hu : r.update = some update) {fetch : Method}
    (hf : client.fetchMethod? r = some fetch) :
    (client.updateSamples r).value.map some =
      ((examplesOf (client.references update)).filter fun x =>
        !(client.createsByUpdate r && !speaksOfUpdate x.2.1)).map
          fun x => (x.2.2.update client r fetch x.1 x.2.1).value := by
  have hs := map_filterMap_ite
    (fun x : Method × String × Example => client.createsByUpdate r && !speaksOfUpdate x.2.1)
    (fun x => client.isSome_update hu x.2.2 fetch x.1 x.2.1) (examplesOf (client.references update))
  rw [← hs]
  unfold updateSamples
  rw [hu, hf]
  dsimp only
  rw [Logged.value_bind, Logged.value_mapM, Logged.value_pure]
  congr 3
  funext x
  rw [apply_ite Logged.value]
  rfl

theorem value_updateSamples_of_none (hf : client.fetchMethod? r = none) :
    (client.updateSamples r).value = [] := by
  unfold updateSamples
  rw [hf]
  cases r.update <;> rfl

/-! ### One method for both -/

/-- Examples of the method by which a resource is created and updated alike become definitions or
updates by their names; without a method to fetch the resource, there are no updates. -/
structure SplitByName (client : Client) (c : Collection) (r : Resource) (create update : Binding) :
    Prop where
  once : (client.boundResources c .create).count (r, create) = 1 ∧
    (client.boundResources c .update).count (r, update) = 1
  together : client.operationName update = client.operationName create
  created : (client.createSamples r).value.map some =
    ((examplesOf (client.references create)).filter fun x => !speaksOfUpdate x.2.1).map
      fun x => (x.2.2.create client r x.1 x.2.1).value
  updated : ∀ refresh fetch, r.refresh = some refresh →
    (client.references refresh).find? (·.hasContext) = some fetch →
    (client.updateSamples r).value.map some =
      ((examplesOf (client.references create)).filter fun x => speaksOfUpdate x.2.1).map
        fun x => (x.2.2.update client r fetch x.1 x.2.1).value
  unfetched : (∀ refresh, r.refresh = some refresh →
    ∀ m ∈ client.references refresh, m.hasContext = false) → (client.updateSamples r).value = []

/-- Creates and updates that go by the same method refer to the same methods. -/
theorem references_of_same_method (h : client.Consistent) (hr : client.RefersByName) {i : Nat}
    (hi : client.resources[i]? = some r) (hc : r.create = some create)
    (hu : r.update = some update) (hm : create.method = update.method) :
    client.references update = client.references create := by
  have hcol : update.collection = create.collection :=
    ((h.coherent i r hi).beside create hc .update update hu).1
  have hat : client.bindingAt? .create i = some create := by rw [bindingAt?, hi]; exact hc
  have hat' : client.bindingAt? .update i = some update := by rw [bindingAt?, hi]; exact hu
  rw [references, references, hr _ _ _ hat, hr _ _ _ hat', hcol, hm]

/-- Whether creates and updates go by one method plays no part where there are no methods. -/
theorem createsByUpdate_of_same_references (hc : r.create = some create)
    (hu : r.update = some update)
    (hr : client.references update = client.references create) :
    client.references create = [] ∨ client.createsByUpdate r = true := by
  cases hl : client.references create with
  | nil => exact .inl rfl
  | cons m rest =>
    right
    unfold createsByUpdate
    rw [hc, hu]
    dsimp only
    rw [hr, hl]
    exact beq_self_eq_true m.name

theorem boundResource?_eq_some {phase : Phase} {i : Nat} {b : Binding} :
    client.boundResource? phase i = some (r, b) ↔
      client.resources[i]? = some r ∧ r.binding? phase = some b := by
  simp only [boundResource?, Option.bind_eq_some_iff, Option.map_eq_some_iff, Prod.mk.injEq]
  constructor
  · rintro ⟨r, hr, b, hb, rfl, rfl⟩
    exact ⟨hr, hb⟩
  · rintro ⟨hr, hb⟩
    exact ⟨r, hr, b, hb, rfl, rfl⟩

/-- A resource that is bound in a phase is met once in its collection. -/
theorem count_boundResources (h : client.Consistent) {j : Nat}
    (hc : client.collections[j]? = some c) {phase : Phase} {i : Nat} {b : Binding}
    (hi : client.resources[i]? = some r) (hb : r.binding? phase = some b)
    (hj : b.collection = j) : (client.boundResources c phase).count (r, b) = 1 := by
  unfold boundResources
  have hn : ((c.bound phase).filterMap (client.boundResource? phase)).Nodup := by
    apply List.Nodup.filterMap
    · rintro i i' ⟨r, b⟩ hx hx'
      obtain ⟨hr, hb⟩ := boundResource?_eq_some.mp hx
      obtain ⟨hr', hb'⟩ := boundResource?_eq_some.mp hx'
      exact ((h.coherent i r hr).own phase b hb).symm.trans ((h.coherent i' r hr').own phase b hb')
    · exact h.nodup_bound (List.mem_of_getElem? hc) phase
  apply List.count_eq_one_of_mem hn
  apply List.mem_filterMap.mpr
  refine ⟨i, ?_, boundResource?_eq_some.mpr ⟨hi, hb⟩⟩
  rw [h.listed phase j c hc]
  refine ⟨b, ?_, hj⟩
  rw [bindingAt?, hi]
  exact hb

/-- Each example goes to one side only; without a fetch the other side is dropped. -/
theorem splitByName (h : client.Consistent) (hr : client.RefersByName) {j : Nat}
    (hcol : client.collections[j]? = some c) {i : Nat} (hi : client.resources[i]? = some r)
    (hc : r.create = some create) (hu : r.update = some update) (hj : create.collection = j)
    (hm : create.method = update.method) : client.SplitByName c r create update := by
  have href := references_of_same_method h hr hi hc hu hm
  have hshared := createsByUpdate_of_same_references hc hu href
  have hcol' : update.collection = j :=
    ((h.coherent i r hi).beside create hc .update update hu).1.trans hj
  constructor
  · exact ⟨count_boundResources h hcol hi hc hj, count_boundResources h hcol hi hu hcol'⟩
  · rw [operationName, operationName, href]
  · rw [value_createSamples hc]
    rcases hshared with hnil | hs
    · rw [hnil]
      rfl
    · rw [hs]
      rfl
  · intro refresh fetch hrefresh hf
    have hfetch : client.fetchMethod? r = some fetch := by
      rw [fetchMethod?, hrefresh]
      exact hf
    rw [value_updateSamples hu hfetch, href]
    rcases hshared with hnil | hs
    · rw [hnil]
      rfl
    · rw [hs]
      simp only [Bool.true_and, Bool.not_not]
  · intro hnone
    apply value_updateSamples_of_none
    rw [fetchMethod?]
    cases hrefresh : r.refresh with
    | none => rfl
    | some refresh =>
      rw [Option.bind_some, List.find?_eq_none]
      intro m hmem
      rw [hnone refresh hrefresh m hmem]
      decide

/-! ### The whole book -/

/-- The book of the collection at a position, which offers some operations, holds each sample that
is due once. -/
structure SamplesComplete (client : Client) (j : Nat) (c : Collection)
    (operations : List Operation) : Prop where
  sorted : (client.samples c).value.Pairwise (·.name < ·.name)
  /-- the two methods of each operation stand next to each other -/
  overloads : c.methods.length = 2 * operations.length ∧ ∀ o op, operations[o]? = some op →
    [c.methods[2 * o]?, c.methods[2 * o + 1]?] = op.collectionMethods.map some
  full : ∀ op ∈ operations, op.collectionMethods.filter (·.hasContext) = [op.fullMethod] ∧
    op.fullMethod.requiredOnly = false
  calls : ∀ name, (client.samples c).value.under (·.calls) name =
    (operations.zipIdx.filter fun p => p.1.SendsJson ∧ ¬ client.RefersAt c (2 * p.2) ∧
        ¬ client.RefersAt c (2 * p.2 + 1) ∧ entryName c.name p.1.name = name).flatMap
      fun p => p.1.examples.map fun e => (e.2.call c.name p.1.fullMethod e.1).value
  creates : ∀ name, (client.samples c).value.under (·.creates) name =
    ((client.boundResources c .create).filter fun p =>
        entryName c.name (client.operationName p.2) = name).flatMap
      fun p => (client.createSamples p.1).value
  updates : ∀ name, (client.samples c).value.under (·.updates) name =
    ((client.boundResources c .update).filter fun p =>
        entryName c.name (client.operationName p.2) = name).flatMap
      fun p => (client.updateSamples p.1).value
  split : ∀ (i : Nat) (r : Resource) (create update : Binding),
    client.resources[i]? = some r → r.create = some create → r.update = some update →
    create.collection = j → create.method = update.method →
    client.SplitByName c r create update

/-- The samples of calls come from the operations that no create and no update refers to. -/
theorem callItems_eq (h : client.Consistent) (hr : client.RefersByName) {j : Nat}
    (hc : client.collections[j]? = some c) {operations : List Operation}
    (hm : c.methods = operations.flatMap Operation.collectionMethods) :
    client.callItems c =
      (operations.zipIdx.filter fun p => p.1.SendsJson ∧ ¬ client.RefersAt c (2 * p.2) ∧
          ¬ client.RefersAt c (2 * p.2 + 1)).flatMap
        fun p => (p.1.examples.map fun e => (e.2.call c.name p.1.fullMethod e.1).value).map
          (p.1.name, ·) := by
  rw [callItems, examplesOf, filter_hasSamples_plainMethods h hr hc hm, List.flatMap_map,
    List.map_flatMap]
  simp only [Operation.operation_fullMethod, List.map_map, Function.comp_def]

theorem samplesComplete (h : client.Consistent) (hr : client.RefersByName) {j : Nat}
    (hc : client.collections[j]? = some c) {operations : List Operation}
    (hm : c.methods = operations.flatMap Operation.collectionMethods) :
    client.SamplesComplete j c operations := by
  constructor
  · exact client.sorted_samples c
  · constructor
    · rw [hm, length_flatMap_collectionMethods]
    · intro o op ho
      have h0 := getElem?_flatMap_collectionMethods ho (q := 0) (by decide)
      have h1 := getElem?_flatMap_collectionMethods ho (q := 1) (by decide)
      rw [Nat.add_zero] at h0
      rw [hm, h0, h1]
      rcases op.collectionMethods_cases with he | he <;> rw [he] <;> rfl
  · exact fun op _ => ⟨op.filter_hasContext, op.requiredOnly_fullMethod⟩
  · intro name
    rw [calls_samples, callItems_eq h hr hc hm, itemsUnder_flatMap, List.filter_filter]
    congr 2
    funext p
    rw [← Bool.decide_and, decide_eq_decide]
    constructor
    · rintro ⟨hn, hj, h0, h1⟩
      exact ⟨hj, h0, h1, hn⟩
    · rintro ⟨hj, h0, h1, hn⟩
      exact ⟨hn, hj, h0, h1⟩
  · intro name
    rw [creates_samples, createItems]
    exact itemsUnder_flatMap c name (client.boundResources c .create)
      (fun p => client.operationName p.2) fun p => (client.createSamples p.1).value
  · intro name
    rw [updates_samples, updateItems]
    exact itemsUnder_flatMap c name (client.boundResources c .update)
      (fun p => client.operationName p.2) fun p => (client.updateSamples p.1).value
  · intro i r create update hi hcreate hu hj hmethod
    exact splitByName h hr hc hi hcreate hu hj hmethod

end Client

/-- In the client of a service, each sample that is due is given once. -/
theorem Assembly.samples_complete (a : Assembly) (service : Service) {j : Nat} {c : Collection}
    (hc : (a.client service).value.collections[j]? = some c) :
    ∃ g, service.groups[j]? = some g ∧ c.name = g.name ∧
      (a.client service).value.SamplesComplete j c g.operations := by
  obtain ⟨g, hg, hn, hm⟩ := a.group_of_collection service hc
  exact ⟨g, hg, hn, Client.samplesComplete (a.consistent_client service)
    (a.refersByName_client service) hc hm⟩

namespace Workshop

open Json

/-- Tools are put in a group; there is a call that does not send JSON. -/
def sampleTools : Service where
  name := "Workshop"
  schemas :=
    [{ identified "ToolInner" with
        properties := (identified "ToolInner").properties ++
          [⟨"size", "size", .integer, false, false, false, none⟩] }]
  groups :=
    let parameters : List Parameter :=
      [⟨"group", "g", .path, .string, true, false, false⟩,
        ⟨"tool", "t", .path, .string, true, false, false⟩]
    let saw (size : Int) : Example :=
      ⟨none, [("g", .string "shed"), ("t", .string "saw"),
        ("body", .object [("size", .integer size)])], []⟩
    [⟨"tools",
      [{ operation "createOrUpdate" .put toolUrl (parameters ++ [body "ToolInner"]) "ToolInner" with
          examples := [("Create tool", saw 7), ("Update tool", saw 8)] },
        { operation "get" .get toolUrl parameters "ToolInner" with
          examples := [("Get tool", ⟨none, [("t", .string "saw")], []⟩)] },
        { operation "lend" .post (toolUrl ++ "/lend") [] "ToolInner" with
          requestContentType := some "text/plain"
          examples := [("Lend tool", ⟨none, [], []⟩)] }]⟩]

end Workshop

theorem samples_in_workshop :
    let client := ((Assembly.fresh .standard).client Workshop.sampleTools).value
    let call (x : CallSample) :=
      (x.head.name, x.method, x.parameters.map fun p => (p.1, p.2.compact))
    let setter (x : Call) := (x.method, x.arguments.map (·.compact))
    let entry (s : OperationSamples) := (s.name, s.calls.map call,
      s.creates.map fun x => (x.head.name, x.resource, setter x.define, x.stages.map setter),
      s.updates.map fun x => (x.head.name, x.resource, call x.fetch, x.stages.map setter))
    let expected :=
      [("ToolsCreateOrUpdate", [],
        [("Create tool", "Tool", ("define", ["\"saw\""]),
          [("withExistingResourceGroup", ["\"shed\""]), ("withSize", ["7"])])],
        [("Update tool", "Tool",
          ("Update tool", "getWithResponse", [("group", "\"shed\""), ("tool", "\"saw\"")]),
          [("withSize", ["8"])])]),
        ("ToolsGet", [("Get tool", "getWithResponse", [("group", "null"), ("tool", "\"saw\"")])],
          [], [])]
    ∃ c g, client.collections[0]? = some c ∧ Workshop.sampleTools.groups[0]? = some g ∧
      (client.samples c).value.map entry = expected ∧ client.SamplesComplete 0 c g.operations := by
  intro client call setter entry expected
  have h : (client.collections[0]?.any fun c =>
      (client.samples c).value.map entry == expected) = true := by decide +kernel
  obtain ⟨c, hc, hb⟩ := Option.any_eq_true _ _ |>.mp h
  obtain ⟨g, hg, _, hs⟩ := Assembly.samples_complete (.fresh .standard) Workshop.sampleTools hc
  exact ⟨c, g, hc, hg, eq_of_beq hb, hs⟩

end Lifecycle
