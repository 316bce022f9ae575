import Lifecycle.Proofs.CreateChoice

/-!
# What a trial touches

A trial writes to its own collection and to those candidates that it creates, none of which had a
create before. It misses no create that it can find, so that a second trial of the same resources,
or of fewer, changes nothing, as long as every schema still leads to the same resource.
-/
namespace Lifecycle

open Indexed

namespace Client

/-- `next` differs from `client` at most by what a trial of candidates may do. -/
structure Frame (client next : Client) (collection : Nat) (candidates : List Nat) : Prop where
  name : next.name = client.name
  schemas : next.schemas = client.schemas
  methods : next.collections.map (·.methods) = client.collections.map (·.methods)
  length : next.resources.length = client.resources.length
  elsewhere : ∀ j, j ≠ collection → next.collections[j]? = client.collections[j]?
  created : ∀ i, client.isCreated i = true → next.resources[i]? = client.resources[i]?
  outside : ∀ i, i ∉ candidates → next.resources[i]? = client.resources[i]?
  changed : ∀ i, next.resources[i]? ≠ client.resources[i]? →
    client.create? i = none ∧ ∃ b, next.create? i = some b ∧ b.collection = collection

/-- Of the resources that wrap the schema of one of the fewer candidates, the first among them is
the first among all candidates. -/
def KeepsFirsts (client : Client) (candidates fewer : List Nat) : Prop :=
  ∀ i ∈ fewer, ∀ r ∈ client.resources[i]?,
    client.wrapperOf? fewer r.schema.name = client.wrapperOf? candidates r.schema.name

variable {client : Client} {collection : Nat} {candidates fewer : List Nat}

theorem isCreated_eq (client : Client) (i : Nat) :
    client.isCreated i = (client.create? i).isSome := by
  unfold isCreated create?
  cases client.resources[i]? <;> rfl

theorem place_of_offerFor {trial : Trial} {i : Nat} {f : Creation}
    (h : client.offerFor i trial = some f) : f.binding.collection = trial.collection :=
  (offered_of_mem (List.mem_of_find?_eq_some h)).place

/-- A created resource is left as it is by every later classification. -/
theorem getElem?_classify_of_created {i : Nat} (h : client.isCreated i = true) :
    (client.classify collection candidates).value.resources[i]? = client.resources[i]? := by
  have hg := client.getElem?_classify ⟨collection, candidates⟩ i
  rw [hg]
  cases hr : client.resources[i]? with
  | none => rfl
  | some r =>
    have hc : r.create.isSome = true := by
      rw [isCreated, hr] at h
      exact h
    rw [Option.map_some, if_pos hc]

/-- A resource that nothing in the collection offers to create stays as it is. -/
theorem getElem?_classify_of_not_offered {i : Nat}
    (h : client.offerFor i ⟨collection, candidates⟩ = none) :
    (client.classify collection candidates).value.resources[i]? = client.resources[i]? := by
  have hg := client.getElem?_classify ⟨collection, candidates⟩ i
  rw [hg, h]
  cases client.resources[i]? with
  | none => rfl
  | some r => rw [Option.map_some, Option.elim_none, ite_self]

/-- What is offered for a resource without a create becomes its create. -/
theorem create?_classify {i : Nat} {r : Resource} {f : Creation}
    (hr : client.resources[i]? = some r) (hn : client.isCreated i = false)
    (ho : client.offerFor i ⟨collection, candidates⟩ = some f) :
    (client.classify collection candidates).value.create? i =
      some (client.referred f.binding) := by
  have hg := client.getElem?_classify ⟨collection, candidates⟩ i
  have hc : ¬ r.create.isSome = true := by
    rw [isCreated, hr] at hn
    rw [Bool.not_eq_true]
    exact hn
  rw [hr, Option.map_some, if_neg hc, ho] at hg
  rw [create?, hg]
  rfl

/-- Nothing changes outside the collection and the candidates, nor any created resource. -/
theorem frame_classify (client : Client) (collection : Nat) (candidates : List Nat) :
    client.Frame (client.classify collection candidates).value collection candidates := by
  have ho := client.outline_classify collection candidates
  constructor
  · exact name_eq_of_outline ho
  · exact schemas_eq_of_outline ho
  · rw [value_classify]
    have hm : ∀ c, (client.listed (client.creations collection candidates) c).methods = c.methods :=
      fun _ => rfl
    exact map_modify_of_eq hm collection client.collections
  · rw [value_classify]
    exact List.length_mapIdx
  · intro j hj
    rw [value_classify]
    exact List.getElem?_modify_ne _ _ hj.symm
  · intro i hi
    exact getElem?_classify_of_created hi
  · intro i hi
    exact getElem?_classify_of_not_offered (offerFor_eq_none hi)
  · intro i hi
    cases hc : client.isCreated i with
    | true => exact absurd (getElem?_classify_of_created hc) hi
    | false =>
      cases hf : client.offerFor i ⟨collection, candidates⟩ with
      | none => exact absurd (getElem?_classify_of_not_offered hf) hi
      | some f =>
        obtain ⟨r, hr⟩ : ∃ r, client.resources[i]? = some r := by
          have hm := offered_of_mem (List.mem_of_find?_eq_some hf)
          rw [← key_of_find? Creation.resource hf]
          exact hm.exists_resource
        have hb := create?_classify hr hc hf
        refine ⟨?_, _, hb, place_of_offerFor hf⟩
        rwa [isCreated_eq, Option.isSome_eq_false_iff, Option.isNone_iff_eq_none] at hc

/-! ### A second trial -/

theorem settle_nil (client : Client) (collection : Nat) : client.settle collection [] = client := by
  have hr : client.resources.mapIdx (patch Creation.resource client.settled []) =
      client.resources := by
    rw [← foldl_modify_eq_mapIdx (by simp)]
    rfl
  have hc : client.listed [] = id := by
    funext c
    unfold listed
    simp
  unfold settle
  rw [hr, hc, List.modify_id]

/-- What some of the candidates are offered, all candidates are offered. -/
theorem offers_subset (h : client.KeepsFirsts candidates fewer) (collection : Nat)
    (categories : List Category) :
    client.offers collection fewer categories ⊆ client.offers collection candidates categories := by
  intro f hf
  obtain ⟨category, hk, hc⟩ := List.mem_flatMap.mp hf
  obtain ⟨m, hm, ho⟩ := List.mem_filterMap.mp hc
  obtain ⟨i, ht, hb⟩ := offer?_eq_some_iff.mp ho
  obtain ⟨hp, schema, hs, hw, r, hr, hrest⟩ := target?_eq_some_iff.mp ht
  have hfound : fewer.find? (client.wraps schema) = some i := by rw [← wrapperOf?_eq, hw]
  have hn : schema = r.schema.name := (wraps_iff hr schema).mp (List.find?_some hfound)
  have hw' : client.wrapperOf? candidates schema = some i := by
    rw [← hw, hn, h i (List.mem_of_find?_eq_some hfound) r hr]
  have ht' : client.target? candidates category m = some i :=
    target?_eq_some_iff.mpr ⟨hp, schema, hs, hw', r, hr, hrest⟩
  have ho' : client.offer? collection candidates category m = some f :=
    offer?_eq_some_iff.mpr ⟨i, ht', hb⟩
  exact List.mem_flatMap.mpr ⟨category, hk, List.mem_filterMap.mpr ⟨m, hm, ho'⟩⟩

/-- A trial leaves no resource without a create that it is offered one for. -/
theorem isCreated_classify {f : Creation}
    (h : f ∈ client.offers collection candidates Category.priority) :
    (client.classify collection candidates).value.isCreated f.resource = true := by
  cases hc : client.isCreated f.resource with
  | true =>
    rw [isCreated, getElem?_classify_of_created hc]
    exact hc
  | false =>
    obtain ⟨r, hr⟩ := (offered_of_mem h).exists_resource
    have ho : (client.offerFor f.resource ⟨collection, candidates⟩).isSome = true :=
      List.find?_isSome.mpr ⟨f, h, beq_self_eq_true _⟩
    obtain ⟨first, hfirst⟩ := Option.isSome_iff_exists.mp ho
    rw [isCreated_eq, create?_classify hr hc hfirst]
    rfl

/-- Nothing is left to create, also from fewer candidates with the same first wrappers. -/
theorem creations_classify (h : client.KeepsFirsts candidates fewer) :
    (client.classify collection candidates).value.creations collection fewer = [] := by
  let next := (client.classify collection candidates).value
  have ho : next.outline = client.outline := client.outline_classify collection candidates
  have hk : (next.creations collection fewer).map Creation.resource = [] := by
    rw [List.eq_nil_iff_forall_not_mem]
    intro i hi
    obtain ⟨hn, hm⟩ := mem_keys_firsts.mp hi
    obtain ⟨f, hf, rfl⟩ := List.mem_map.mp hm
    rw [offers_congr ho] at hf
    have hc : next.isCreated f.resource = true :=
      isCreated_classify (offers_subset h collection Category.priority hf)
    rw [hc] at hn
    cases hn
  exact List.map_eq_nil_iff.mp hk

/-- A trial keeps to its footprint, and nothing comes of making it again, with the same resources or
with some of them. -/
theorem classify_within_footprint (client : Client) (collection : Nat) (candidates : List Nat) :
    let next := (client.classify collection candidates).value
    client.Frame next collection candidates ∧
      (next.classify collection candidates).value = next ∧
      ∀ fewer, client.KeepsFirsts candidates fewer →
        (next.classify collection fewer).value = next := by
  intro next
  have again (fewer : List Nat) (h : client.KeepsFirsts candidates fewer) :
      (next.classify collection fewer).value = next := by
    rw [value_classify, creations_classify h, settle_nil]
  exact ⟨client.frame_classify collection candidates, again candidates fun _ _ _ _ => rfl, again⟩

theorem footprint_in_workshop :
    let client := (Assembly.fresh .standard).unclassified Workshop.service
    let next := (client.classify 0 [1, 0]).value
    next.isCreated 0 = true ∧ client.KeepsFirsts [1, 0] [0] ∧
      (next.classify 0 [0]).value = next := by
  intro client next
  have hc : next.isCreated 0 = true := by decide +kernel
  have hk : client.KeepsFirsts [1, 0] [0] := by
    unfold KeepsFirsts
    decide +kernel
  exact ⟨hc, hk, (classify_within_footprint client 0 [1, 0]).2.2 [0] hk⟩

end Client

end Lifecycle
