import Lifecycle.Report
import Lifecycle.Proofs.Sequence

/-!
# Resources and collections agree

What is bound to a resource is noted in the resource and in the list of a collection. Whatever is
tried against whatever collection, in any order and any number of times, the two stay in agreement,
so a report on the collections has each created resource once.
-/
namespace Lifecycle

open Indexed

/-- What is bound to the resource at a position fits together. -/
structure Resource.Coherent (methods : Nat → List Method) (i : Nat) (r : Resource) : Prop where
  immutable_iff : r.category = .immutable ↔ r.create = none
  /-- nothing is bound without a create -/
  create_first : r.create = none → (∀ phase, r.binding? phase = none) ∧ r.actions = none
  own : ∀ phase b, r.binding? phase = some b → b.resource = i
  /-- each phase is bound where the create is -/
  beside : ∀ create, r.create = some create → ∀ phase b, r.binding? phase = some b →
    b.collection = create.collection ∧ b.url = create.url
  references : ∀ phase b, r.binding? phase = some b →
    Increasing (methods b.collection).length b.references
  actions : ∀ create actions, r.create = some create → r.actions = some actions →
    actions.resource = i ∧ actions.collection = create.collection ∧
      Increasing (methods actions.collection).length actions.methods

namespace Client

/-- Resources are bound coherently, and collections list them where they are bound. -/
structure Consistent (client : Client) : Prop where
  coherent : ∀ (i : Nat) (r : Resource), client.resources[i]? = some r → r.Coherent client.methods i
  within : ∀ phase i b, client.bindingAt? phase i = some b →
    b.collection < client.collections.length
  nodup : ∀ phase, (client.collections.flatMap (·.bound phase)).Nodup
  listed : ∀ phase collection c, client.collections[collection]? = some c →
    ∀ i, i ∈ c.bound phase ↔ ∃ b, client.bindingAt? phase i = some b ∧ b.collection = collection

/-- A resource that nothing is bound to is coherent, wherever it is. -/
theorem coherent_outline (methods : Nat → List Method) (i : Nat) (r : Resource) :
    r.outline.Coherent methods i := by
  refine ⟨⟨fun _ => rfl, fun _ => rfl⟩, fun _ => ⟨r.binding?_outline, rfl⟩, ?_, ?_, ?_, ?_⟩
  · intro phase b h
    rw [r.binding?_outline] at h
    cases h
  · intro create h
    cases h
  · intro phase b h
    rw [r.binding?_outline] at h
    cases h
  · intro create actions h
    cases h

/-- Nothing is bound at first. -/
theorem consistent_outline (client : Client) : client.outline.Consistent := by
  have hb (phase : Phase) (i : Nat) : client.outline.bindingAt? phase i = none := by
    rw [bindingAt?, getElem?_outline]
    cases client.resources[i]? with
    | none => rfl
    | some r => exact r.binding?_outline phase
  constructor
  · intro i r hr
    rw [getElem?_outline] at hr
    obtain ⟨r, _, rfl⟩ := Option.map_eq_some_iff.mp hr
    exact coherent_outline client.outline.methods i r
  · intro phase i b h
    rw [hb] at h
    cases h
  · intro phase
    have he : client.outline.collections.flatMap (·.bound phase) = [] := by
      rw [List.flatMap_eq_nil_iff]
      intro c h
      obtain ⟨c, _, rfl⟩ := List.mem_map.mp h
      exact c.bound_outline phase
    rw [he]
    exact List.nodup_nil
  · intro phase collection c h i
    obtain ⟨c, _, rfl⟩ := List.mem_map.mp (List.mem_of_getElem? h)
    rw [c.bound_outline, hb]
    simp

/-! ### What a create binds -/

theorem bound_listed (client : Client) (found : List Creation) (c : Collection) (phase : Phase) :
    (client.listed found c).bound phase = c.bound phase ++
      (found.filter fun f => (client.boundBy f phase).isSome).map Creation.resource := by
  cases phase with
  | create =>
    have ha : found.filter (fun f => (client.boundBy f .create).isSome) = found :=
      List.filter_eq_self.mpr fun _ _ => rfl
    rw [ha]
    rfl
  | update => rfl
  | refresh => rfl
  | delete => rfl

/-- All that a create binds is bound to its resource, where the create is. -/
theorem boundBy_eq_some {client : Client} {f : Creation} {phase : Phase} {b : Binding}
    (h : client.boundBy f phase = some b) :
    b.resource = f.resource ∧ b.collection = f.binding.collection ∧ b.url = f.binding.url ∧
      b.references = referencesTo (client.methods f.binding.collection) b.method := by
  have hf (phase : Phase) (h : client.followed phase f = some b) :
      b.resource = f.resource ∧ b.collection = f.binding.collection ∧ b.url = f.binding.url ∧
        b.references = referencesTo (client.methods f.binding.collection) b.method := by
    obtain ⟨m, body, rfl⟩ := bindingTo_of_followed h
    exact ⟨rfl, rfl, rfl, rfl⟩
  cases phase with
  | create =>
    cases h
    exact ⟨rfl, rfl, rfl, rfl⟩
  | update => exact hf _ h
  | refresh => exact hf _ h
  | delete => exact hf _ h

theorem increasing_referencesTo (methods : List Method) (name : String) :
    Increasing methods.length (referencesTo methods name) :=
  increasing_positions _ methods

/-- A resource that is settled before anything was bound to it is bound coherently. -/
theorem coherent_settled {client : Client} {f : Creation} {r : Resource}
    (hk : f.category ≠ .immutable) (hn : (∀ phase, r.binding? phase = none) ∧ r.actions = none) :
    (client.settled f r).Coherent client.methods f.resource := by
  have hb {phase : Phase} {b : Binding} (h : (client.settled f r).binding? phase = some b) :
      b.resource = f.resource ∧ b.collection = f.binding.collection ∧ b.url = f.binding.url ∧
        b.references = referencesTo (client.methods f.binding.collection) b.method := by
    rw [binding?_settled, hn.1, Option.or_none] at h
    exact boundBy_eq_some h
  constructor
  · exact ⟨fun h => absurd h hk, fun h => nomatch h⟩
  · intro h
    cases h
  · intro phase b h
    exact (hb h).1
  · rintro create ⟨⟩ phase b h
    obtain ⟨_, hc, hu, _⟩ := hb h
    exact ⟨hc, hu⟩
  · intro phase b h
    obtain ⟨_, hc, _, hr⟩ := hb h
    rw [hr, hc]
    exact increasing_referencesTo _ _
  · rintro create actions ⟨⟩ h
    have ha : client.actionsOn f.resource (client.referred f.binding) = some actions := by
      rw [← h]
      change _ = Option.or _ r.actions
      rw [hn.2, Option.or_none]
    rw [actionsOn] at ha
    split at ha
    · cases ha
    · cases ha
      exact ⟨rfl, rfl, increasing_positions _ _⟩

/-! ### One trial -/

theorem getElem?_settle (client : Client) (collection : Nat) (found : List Creation) (i : Nat) :
    (client.settle collection found).resources[i]? = client.resources[i]?.map fun r =>
      (found.find? (·.resource == i)).elim r (client.settled · r) :=
  List.getElem?_mapIdx

namespace Consistent

variable {client : Client}

theorem nodup_bound (h : client.Consistent) {c : Collection} (hc : c ∈ client.collections)
    (phase : Phase) : (c.bound phase).Nodup :=
  (List.nodup_flatMap.mp (h.nodup phase)).1 c hc

theorem exists_binding (h : client.Consistent) {c : Collection} (hc : c ∈ client.collections)
    {phase : Phase} {i : Nat} (hi : i ∈ c.bound phase) :
    ∃ b, client.bindingAt? phase i = some b := by
  obtain ⟨j, hj⟩ := List.mem_iff_getElem?.mp hc
  obtain ⟨b, hb, _⟩ := (h.listed phase j c hj i).mp hi
  exact ⟨b, hb⟩

/-- Nothing is bound yet to the resource of a create that is found. -/
theorem unbound (h : client.Consistent) {collection : Nat} {candidates : List Nat} {f : Creation}
    (hf : f ∈ client.creations collection candidates) :
    ∃ r, client.resources[f.resource]? = some r ∧ (∀ phase, r.binding? phase = none) ∧
      r.actions = none := by
  obtain ⟨r, hr⟩ := (offered_of_mem_creations hf).exists_resource
  have hk : client.isCreated f.resource = false :=
    (mem_keys_firsts.mp (List.mem_map_of_mem hf)).1
  have hc : r.create = none := by
    rw [isCreated, hr] at hk
    simpa using hk
  exact ⟨r, hr, (h.coherent _ r hr).create_first hc⟩

/-- A trial binds what its creates bind, and nothing else. -/
theorem bindingAt?_settle (h : client.Consistent) (collection : Nat) (candidates : List Nat)
    (phase : Phase) (i : Nat) :
    let found := client.creations collection candidates
    (client.settle collection found).bindingAt? phase i =
      (found.find? (·.resource == i)).elim (client.bindingAt? phase i)
        (client.boundBy · phase) := by
  intro found
  unfold bindingAt?
  rw [getElem?_settle, Option.bind_map]
  cases hf : found.find? (·.resource == i) with
  | none => rfl
  | some f =>
    obtain rfl := key_of_find? Creation.resource hf
    obtain ⟨r, hr, hn, _⟩ := h.unbound (List.mem_of_find?_eq_some hf)
    rw [hr, Option.bind_some, Function.comp_apply, Option.elim_some, Option.elim_some,
      binding?_settled, hn, Option.or_none]

/-- Settled resources are coherent, whether or not a create was found for them. -/
theorem coherent_settle (h : client.Consistent) (collection : Nat) (candidates : List Nat) {i : Nat}
    {r : Resource} (hr : (client.settle collection
      (client.creations collection candidates)).resources[i]? = some r) :
    r.Coherent client.methods i := by
  rw [getElem?_settle] at hr
  obtain ⟨before, hb, rfl⟩ := Option.map_eq_some_iff.mp hr
  cases hf : (client.creations collection candidates).find? (·.resource == i) with
  | none => exact h.coherent i before hb
  | some f =>
    have hm := List.mem_of_find?_eq_some hf
    obtain rfl := key_of_find? Creation.resource hf
    obtain ⟨r, hr, hn⟩ := h.unbound hm
    obtain rfl : before = r := Option.some.inj (hb.symm.trans hr)
    have hk := (offered_of_mem_creations hm).category
    apply coherent_settled _ hn
    intro he
    rw [he] at hk
    exact absurd hk (by decide)

/-- Whom a collection lists after a trial. -/
theorem mem_bound_settle (collection : Nat) (candidates : List Nat) {phase : Phase} {j : Nat}
    {c : Collection} :
    let found := client.creations collection candidates
    (client.settle collection found).collections[j]? = some c →
    ∃ before, client.collections[j]? = some before ∧ ∀ i, i ∈ c.bound phase ↔
      i ∈ before.bound phase ∨ (collection = j ∧
        (found.find? (·.resource == i)).any (fun f => (client.boundBy f phase).isSome) = true) := by
  intro found hc
  change (client.collections.modify collection (client.listed found))[j]? = some c at hc
  rw [List.getElem?_modify] at hc
  obtain ⟨before, hb, rfl⟩ := Option.map_eq_some_iff.mp hc
  refine ⟨before, hb, ?_⟩
  intro i
  by_cases hj : collection = j
  · rw [if_pos hj, bound_listed, List.mem_append,
      mem_keys_filter (client.nodup_creations collection candidates), and_iff_right hj]
  · rw [if_neg hj]
    simp only [hj, false_and, or_false]

/-- A collection lists a resource exactly if the resource is bound in it. -/
theorem listed_settle (h : client.Consistent) (collection : Nat) (candidates : List Nat)
    {phase : Phase} {j : Nat} {c : Collection} :
    let next := client.settle collection (client.creations collection candidates)
    next.collections[j]? = some c →
    ∀ i, i ∈ c.bound phase ↔ ∃ b, next.bindingAt? phase i = some b ∧ b.collection = j := by
  intro next hc i
  obtain ⟨before, hb, hm⟩ := mem_bound_settle collection candidates hc
  rw [hm, h.listed phase j before hb i, h.bindingAt?_settle]
  cases hf : (client.creations collection candidates).find? (·.resource == i) with
  | none => simp
  | some f =>
    have hmem := List.mem_of_find?_eq_some hf
    obtain rfl := key_of_find? Creation.resource hf
    obtain ⟨r, hr, hn, _⟩ := h.unbound hmem
    -- no list had the resource before, so the trial adds it once, in its own collection
    have ho : client.bindingAt? phase f.resource = none := by
      rw [bindingAt?, hr, Option.bind_some, hn]
    have hcol := (offered_of_mem_creations hmem).place
    rw [ho, Option.any_some, Option.elim_some, Option.isSome_iff_exists]
    constructor
    · rintro (⟨b, h', _⟩ | ⟨rfl, b, hb'⟩)
      · cases h'
      · exact ⟨b, hb', (boundBy_eq_some hb').2.1.trans hcol⟩
    · rintro ⟨b, hb', rfl⟩
      exact .inr ⟨hcol.symm.trans (boundBy_eq_some hb').2.1.symm, b, hb'⟩

/-- Lists that agree with the resources do not overlap: a resource is bound once in a phase. -/
theorem nodup_flatMap_bound {phase : Phase}
    (hl : ∀ j c, client.collections[j]? = some c → ∀ i, i ∈ c.bound phase ↔
      ∃ b, client.bindingAt? phase i = some b ∧ b.collection = j)
    (hn : ∀ c ∈ client.collections, (c.bound phase).Nodup) :
    (client.collections.flatMap (·.bound phase)).Nodup := by
  rw [List.nodup_flatMap]
  refine ⟨hn, ?_⟩
  rw [List.pairwise_iff_getElem]
  intro j k hj hk hjk i hi hi'
  obtain ⟨b, hb, rfl⟩ := (hl j _ (List.getElem?_eq_getElem hj) i).mp hi
  obtain ⟨b', hb', rfl⟩ := (hl k _ (List.getElem?_eq_getElem hk) i).mp hi'
  obtain rfl : b = b' := Option.some.inj (hb.symm.trans hb')
  exact absurd hjk (Nat.lt_irrefl _)

/-- A resource is never listed twice in one phase, since it was not created before. -/
theorem nodup_bound_settle (h : client.Consistent) (collection : Nat) (candidates : List Nat)
    {phase : Phase} {c : Collection} (hc : c ∈ (client.settle collection
      (client.creations collection candidates)).collections) : (c.bound phase).Nodup := by
  obtain ⟨j, hj⟩ := List.mem_iff_getElem?.mp hc
  change (client.collections.modify collection _)[j]? = some c at hj
  rw [List.getElem?_modify] at hj
  obtain ⟨before, hb, rfl⟩ := Option.map_eq_some_iff.mp hj
  have hmem := List.mem_of_getElem? hb
  have hn : (before.bound phase).Nodup := h.nodup_bound hmem phase
  by_cases hk : collection = j
  · rw [if_pos hk, bound_listed, List.nodup_append]
    refine ⟨hn, ?_, ?_⟩
    · exact List.Nodup.sublist ((List.filter_sublist).map _)
        (client.nodup_creations collection candidates)
    · rintro i hi _ hnew rfl
      obtain ⟨f, hf, rfl⟩ := List.mem_map.mp hnew
      obtain ⟨r, hr, hu, _⟩ := h.unbound (List.mem_filter.mp hf).1
      obtain ⟨b, hb'⟩ := h.exists_binding hmem hi
      rw [bindingAt?, hr, Option.bind_some, hu] at hb'
      cases hb'
  · rw [if_neg hk]
    exact hn

/-- A trial keeps resources and collections in agreement. -/
theorem classify (h : client.Consistent) (collection : Nat) (candidates : List Nat) :
    (client.classify collection candidates).value.Consistent := by
  rw [value_classify]
  constructor
  · intro i r hr
    have hm : (client.settle collection (client.creations collection candidates)).methods =
        client.methods := funext (methods_eq_of_outline (client.outline_settle _ _))
    rw [hm]
    exact h.coherent_settle collection candidates hr
  · intro phase i b hb
    rw [h.bindingAt?_settle] at hb
    change _ < (client.collections.modify collection _).length
    rw [List.length_modify]
    cases hf : (client.creations collection candidates).find? (·.resource == i) with
    | none =>
      rw [hf] at hb
      exact h.within phase i b hb
    | some f =>
      rw [hf] at hb
      have ho := offered_of_mem_creations (List.mem_of_find?_eq_some hf)
      rw [(boundBy_eq_some hb).2.1, ho.place]
      exact ho.within
  · intro phase
    apply nodup_flatMap_bound
    · exact fun j c hc => h.listed_settle collection candidates hc
    · exact fun c hc => h.nodup_bound_settle collection candidates hc
  · exact fun phase j c hc => h.listed_settle collection candidates hc

theorem classifyEach (h : client.Consistent) (trials : List Trial) :
    (client.classifyEach trials).Consistent := by
  induction trials generalizing client with
  | nil => exact h
  | cons trial rest ih => exact ih (h.classify trial.collection trial.candidates)

/-- Extra methods are not looked at. -/
theorem addExtras (h : client.Consistent) : client.addExtras.Consistent := by
  have hm : client.addExtras.methods = client.methods :=
    funext (methods_eq_of_outline client.outline_addExtras)
  have hb (phase : Phase) (i : Nat) :
      client.addExtras.bindingAt? phase i = client.bindingAt? phase i := by
    unfold bindingAt? Client.addExtras
    rw [List.getElem?_map, Option.bind_map]
    rfl
  constructor
  · intro i r hr
    unfold Client.addExtras at hr
    rw [List.getElem?_map] at hr
    obtain ⟨before, hbefore, rfl⟩ := Option.map_eq_some_iff.mp hr
    have hc := h.coherent i before hbefore
    rw [hm]
    exact ⟨hc.immutable_iff, hc.create_first, hc.own, hc.beside, hc.references, hc.actions⟩
  · intro phase i b hi
    rw [hb] at hi
    unfold Client.addExtras
    rw [List.length_map]
    exact h.within phase i b hi
  · intro phase
    unfold Client.addExtras
    rw [List.flatMap_map]
    exact h.nodup phase
  · intro phase j c hc i
    unfold Client.addExtras at hc
    rw [List.getElem?_map] at hc
    obtain ⟨before, hbefore, rfl⟩ := Option.map_eq_some_iff.mp hc
    rw [hb]
    exact h.listed phase j before hbefore i

end Consistent

end Client

/-! ### Reports -/

/-- What tells a resource: its name, its schema and its category. -/
def Resource.label (r : Resource) : String × String × Category :=
  (r.name, r.schema.name, r.category)

/-- What an entry of a report tells of its resource. -/
def ResourceReport.label (e : ResourceReport) : String × String × Category :=
  (e.name, e.schema, e.category)

namespace Client

/-- The report on a client has each created resource once, under the collection of its create, by
its name, its schema and its category. -/
structure ReportsCreated (client : Client) : Prop where
  placed : client.report.value.collections.length = client.collections.length ∧
    ∀ (j : Nat) (c : CollectionReport), client.report.value.collections[j]? = some c →
      c.resources.Perm ((client.resources.filter fun r => r.create.any (·.collection == j)).map
        fun r => (client.reportResource r).value)
  complete : (client.report.value.collections.flatMap (·.resources)).Perm
    ((client.resources.filter (·.create.isSome)).map fun r => (client.reportResource r).value)
  count : client.report.value.resourceCount =
    (client.resources.filter (·.create.isSome)).length
  labelled : ∀ (j : Nat) (c : CollectionReport), client.report.value.collections[j]? = some c →
    (c.resources.map (·.label)).Perm
      ((client.resources.filter fun r => r.create.any (·.collection == j)).map (·.label))
  labels : ((client.report.value.collections.flatMap (·.resources)).map (·.label)).Perm
    ((client.resources.filter (·.create.isSome)).map (·.label))

theorem collections_report (client : Client) :
    client.report.value.collections =
      client.collections.map fun c => (client.reportCollection c).value := by
  unfold report
  rw [Logged.value_bind, Logged.value_mapM]
  rfl

/-- The entry of a resource tells which resource it is. -/
theorem label_reportResource (client : Client) (r : Resource) :
    (client.reportResource r).value.label = r.label := rfl

/-- Entries that are those of some resources tell these resources. -/
theorem perm_labels {client : Client} {entries : List ResourceReport} {resources : List Resource}
    (h : entries.Perm (resources.map fun r => (client.reportResource r).value)) :
    (entries.map (·.label)).Perm (resources.map (·.label)) := by
  have hl := h.map (·.label)
  rw [List.map_map] at hl
  exact hl.trans (.of_eq (List.map_congr_left fun r _ => client.label_reportResource r))

theorem resources_reportCollection (client : Client) (c : Collection) :
    (client.reportCollection c).value.resources =
      (c.creates.filterMap (client.resources[·]?)).map
        fun r => (client.reportResource r).value := by
  unfold reportCollection
  rw [Logged.value_bind, Logged.value_mapM]
  rfl

namespace Consistent

variable {client : Client}

/-- Listed as created is the same as having the create, read from either side. -/
theorem mem_creates (h : client.Consistent) {j : Nat} {c : Collection}
    (hc : client.collections[j]? = some c) (i : Nat) :
    i ∈ c.creates ↔
      client.resources[i]?.any (fun r => r.create.any (·.collection == j)) = true := by
  have hl : i ∈ c.creates ↔ ∃ b, client.bindingAt? .create i = some b ∧ b.collection = j :=
    h.listed .create j c hc i
  rw [hl, bindingAt?, Option.any_eq_true]
  simp only [Option.bind_eq_some_iff, Option.any_eq_true, beq_iff_eq]
  constructor
  · rintro ⟨b, ⟨r, hr, hb⟩, hj⟩
    exact ⟨r, hr, b, hb, hj⟩
  · rintro ⟨r, hr, b, hb, hj⟩
    exact ⟨b, ⟨r, hr, hb⟩, hj⟩

/-- Each create is listed by some collection. -/
theorem mem_flatMap_creates (h : client.Consistent) (i : Nat) :
    i ∈ client.collections.flatMap (·.creates) ↔
      client.resources[i]?.any (·.create.isSome) = true := by
  rw [List.mem_flatMap, Option.any_eq_true]
  constructor
  · rintro ⟨c, hc, hi⟩
    obtain ⟨b, hat⟩ := h.exists_binding hc (show i ∈ c.bound .create from hi)
    obtain ⟨r, hr, hb⟩ := Option.bind_eq_some_iff.mp hat
    exact ⟨r, hr, Option.isSome_iff_exists.mpr ⟨b, hb⟩⟩
  · rintro ⟨r, hr, hs⟩
    obtain ⟨b, hb⟩ := Option.isSome_iff_exists.mp hs
    have hat : client.bindingAt? .create i = some b := by
      rw [bindingAt?, hr]
      exact hb
    have hj := h.within .create i b hat
    have hc := List.getElem?_eq_getElem hj
    exact ⟨_, List.getElem_mem hj, (h.listed .create _ _ hc i).mpr ⟨b, hat, rfl⟩⟩

/-- A collection is reported with the resources created through it. -/
theorem perm_resources_report (h : client.Consistent) {j : Nat} {c : CollectionReport}
    (hj : client.report.value.collections[j]? = some c) :
    c.resources.Perm ((client.resources.filter fun r => r.create.any (·.collection == j)).map
      fun r => (client.reportResource r).value) := by
  rw [collections_report, List.getElem?_map] at hj
  obtain ⟨c, hc, rfl⟩ := Option.map_eq_some_iff.mp hj
  rw [resources_reportCollection]
  apply List.Perm.map
  apply perm_filter_of_positions _ (h.mem_creates hc)
  exact h.nodup_bound (List.mem_of_getElem? hc) .create

/-- All collections together are reported with all created resources. -/
theorem perm_allResources_report (h : client.Consistent) :
    (client.report.value.collections.flatMap (·.resources)).Perm
      ((client.resources.filter (·.create.isSome)).map
        fun r => (client.reportResource r).value) := by
  rw [collections_report, List.flatMap_map]
  simp only [resources_reportCollection]
  rw [← List.map_flatMap, ← List.filterMap_flatMap]
  apply List.Perm.map
  exact perm_filter_of_positions (h.nodup .create) h.mem_flatMap_creates

/-- Entries of the report are taken from the listed creates, one for each. -/
theorem reportsCreated (h : client.Consistent) : client.ReportsCreated := by
  have hp := h.perm_allResources_report
  constructor
  · constructor
    · rw [collections_report, List.length_map]
    · exact fun j c hj => h.perm_resources_report hj
  · exact hp
  · rw [Report.resourceCount, hp.length_eq, List.length_map]
  · intro j c hj
    exact perm_labels (h.perm_resources_report hj)
  · exact perm_labels hp

end Consistent

end Client

namespace Assembly

theorem consistent_unclassified (a : Assembly) (service : Service) :
    (a.unclassified service).Consistent := by
  rw [← outline_unclassified]
  exact Client.consistent_outline _

/-- The client of a service came about by trials, and those keep it consistent. -/
theorem consistent_client (a : Assembly) (service : Service) :
    (a.client service).value.Consistent := by
  have hs := a.consistent_unclassified service
  cases hl : a.settings.fluentLite with
  | true =>
    rw [a.value_client service hl]
    exact (hs.classifyEach _).addExtras
  | false =>
    rw [value_client_of_full service hl]
    exact hs

/-- Whatever is tried, resources and collections of a client agree, and a report on the client
counts each created resource once. -/
theorem consistent_of_trials (a : Assembly) (service : Service) :
    (∀ trials : List Trial,
      let client := (a.unclassified service).classifyEach trials
      client.Consistent ∧ client.ReportsCreated) ∧
    let client := (a.client service).value
    client.Consistent ∧ client.ReportsCreated := by
  have hc := a.consistent_client service
  refine ⟨?_, hc, hc.reportsCreated⟩
  intro trials client
  have h : client.Consistent := (a.consistent_unclassified service).classifyEach trials
  exact ⟨h, h.reportsCreated⟩

end Assembly

/-- The tool and the part of the workshop are reported once each, also where the tool is tried again
after the part, with collections and resources given the wrong way round in between. -/
theorem reports_in_workshop :
    let a : Assembly := .fresh .standard
    let entries (client : Client) := client.report.value.collections.map fun c =>
      (c.name, c.resources.map (·.label))
    let expected := [("Tools", [("Tool", "ToolInner", Category.resourceGroupAsParent)]),
      ("Parts", [("Part", "PartInner", Category.subscriptionAsParent)])]
    let client := (a.client Workshop.service).value
    let retried := (a.unclassified Workshop.service).classifyEach
      [⟨1, [1]⟩, ⟨0, [1]⟩, ⟨1, [0]⟩, ⟨0, [1, 0]⟩, ⟨0, [0]⟩]
    (entries client = expected ∧ client.Consistent ∧ client.ReportsCreated) ∧
      entries retried = expected ∧ retried.Consistent ∧ retried.ReportsCreated := by
  intro a entries expected client retried
  obtain ⟨htrials, hclient⟩ := a.consistent_of_trials Workshop.service
  have hentries : entries client = expected := by decide +kernel
  have hretried : entries retried = expected := by decide +kernel
  exact ⟨⟨hentries, hclient⟩, hretried, htrials _⟩

end Lifecycle
