import Mathlib.Data.List.Find
import Lifecycle.Proofs.Sequence
import Lifecycle.Proofs.SubUrl

/-!
# What follows from a create

Once a resource has a create, the methods of its collection decide what else is bound: the first
method that qualifies for a verb on the URL of the create, and as actions all posts one literal
below it. What was bound before, to this resource or to others, plays no part.
-/
namespace Lifecycle

open Indexed

namespace Client

theorem needsIdentityOnly_iff {creates : List Method} {m : Method} :
    needsIdentityOnly creates m = true ↔
      (¬ ∃ p ∈ m.operation.parameters,
        p.location = .query ∧ p.required = true ∧ p.constant = false ∧ p.fromClient = false) ∧
      ¬ ∃ p ∈ m.operation.parameters,
        p.location = .path ∧ p.constant = false ∧ p.fromClient = false ∧
          ∀ reference ∈ creates, ∃ q ∈ reference.operation.parameters,
            q.location = .path ∧ q.serializedName = p.serializedName ∧ q.constant = true ∧
              q.fromClient = false := by
  rw [needsIdentityOnly, Bool.and_eq_true, Bool.not_eq_true', Bool.not_eq_true',
    ← Bool.not_eq_true, ← Bool.not_eq_true]
  simp only [Parameter.isCallerSupplied, List.any_eq_true, List.all_eq_true, Bool.and_eq_true,
    Bool.not_eq_true', beq_iff_eq, and_assoc]

theorem sendsModel_iff {m : Method} :
    m.sendsModel = true ↔ ∃ p ∈ m.operation.parameters,
      p.location = .body ∧ ∃ name, p.type = .model name := by
  have hm (type : ValueType) : type.modelName?.isSome = true ↔ ∃ name, type = .model name := by
    cases type <;> simp [ValueType.modelName?]
  unfold Method.sendsModel Parameter.isBody
  simp only [List.any_eq_true, Bool.and_eq_true, beq_iff_eq, hm]

/-- What it takes for a method to carry a phase of a created resource with a verb. -/
structure Qualifies (client : Client) (create : Binding) (schema : String) (verb : Verb)
    (m : Method) : Prop where
  speaks : m.verb = verb
  place : m.url = create.url
  fetches : verb = .get → mentions "get" m.name = true
  deletes : verb = .delete → mentions "delete" m.name = true
  updates : verb = .patch ∨ verb = .put →
    ¬ (mentions "create" m.name = true ∧ mentions "update" m.name = false)
  returns : verb ≠ .delete → m.returns = .value schema
  /-- fetching and deleting need nothing in the query -/
  query : verb = .get ∨ verb = .delete → ¬ ∃ p ∈ m.operation.parameters,
    p.location = .query ∧ p.required = true ∧ p.constant = false ∧ p.fromClient = false
  /-- nor in the path what is fixed in all methods of the create -/
  path : verb = .get ∨ verb = .delete → ¬ ∃ p ∈ m.operation.parameters,
    p.location = .path ∧ p.constant = false ∧ p.fromClient = false ∧
      ∀ reference ∈ client.references create, ∃ q ∈ reference.operation.parameters,
        q.location = .path ∧ q.serializedName = p.serializedName ∧ q.constant = true ∧
          q.fromClient = false
  sends : verb = .patch ∨ verb = .put → ∃ p ∈ m.operation.parameters,
    p.location = .body ∧ ∃ name, p.type = .model name

instance (client : Client) (create : Binding) (schema : String) (verb : Verb) (m : Method) :
    Decidable (client.Qualifies create schema verb m) :=
  decidable_of_iff
    (m.verb = verb ∧ m.url = create.url ∧ (verb = .get → mentions "get" m.name = true) ∧
      (verb = .delete → mentions "delete" m.name = true) ∧
      (verb = .patch ∨ verb = .put →
        ¬ (mentions "create" m.name = true ∧ mentions "update" m.name = false)) ∧
      (verb ≠ .delete → m.returns = .value schema) ∧
      (verb = .get ∨ verb = .delete →
        needsIdentityOnly (client.references create) m = true) ∧
      (verb = .patch ∨ verb = .put → m.sendsModel = true))
    ⟨fun ⟨hs, hu, hf, hd, hn, hr, hi, hm⟩ => ⟨hs, hu, hf, hd, hn, hr,
        fun h => (needsIdentityOnly_iff.mp (hi h)).1, fun h => (needsIdentityOnly_iff.mp (hi h)).2,
        fun h => sendsModel_iff.mp (hm h)⟩,
      fun ⟨hs, hu, hf, hd, hn, hr, hq, ht, hm⟩ => ⟨hs, hu, hf, hd, hn, hr,
        fun h => needsIdentityOnly_iff.mpr ⟨hq h, ht h⟩, fun h => sendsModel_iff.mpr (hm h)⟩⟩

/-- What it takes for a method to be an action on what was created at a URL. -/
structure Acts (url : Url) (m : Method) : Prop where
  posts : m.verb = .post
  below : ∃ piece : String, '/' ∉ piece.toList ∧ IsLiteral piece ∧ m.url = url.child piece
  deducible : ∀ p ∈ m.operation.parameters,
    p.required = true → p.constant = false → p.fromClient = false →
      p.location = .path ∨ p.location = .body

theorem accepts_update_iff {name : String} :
    Phase.accepts name .update = true ↔
      ¬ (mentions "create" name = true ∧ mentions "update" name = false) := by
  rw [Phase.accepts, mentionsOnly]
  cases mentions "create" name <;> cases mentions "update" name <;> simp

/-- The search for a carrier looks for methods that qualify. -/
theorem carries_iff {client : Client} {r : Resource} {create : Binding} {phase : Phase}
    {verb : Verb} (hp : phase ≠ .create) (hv : verb ∈ phase.verbs) {m : Method} :
    client.carries r create phase verb m = true ↔
      client.Qualifies create r.schema.name verb m := by
  simp only [carries, Bool.and_eq_true, Bool.or_eq_true, beq_iff_eq, Returns.value?_eq_some_iff]
  cases phase with
  | create => exact absurd rfl hp
  | update =>
    have hb : verb = .patch ∨ verb = .put := by simpa [Phase.verbs] using hv
    have hi : ¬ (verb = .get ∨ verb = .delete) := by rcases hb with rfl | rfl <;> decide
    rw [if_neg hi, sendsModel_iff, accepts_update_iff]
    constructor
    · rintro ⟨⟨⟨⟨hs, hn⟩, hr⟩, hu⟩, hm⟩
      exact ⟨hs, hu, fun h => absurd (.inl h) hi, fun h => absurd (.inr h) hi, fun _ => hn,
        fun _ => hr.resolve_left (by decide), fun h => absurd h hi, fun h => absurd h hi,
        fun _ => hm⟩
    · rintro ⟨hs, hu, _, _, hn, hr, _, _, hm⟩
      exact ⟨⟨⟨⟨hs, hn hb⟩, .inr (hr fun e => hi (.inr e))⟩, hu⟩, hm hb⟩
  | refresh =>
    obtain rfl : verb = .get := by simpa [Phase.verbs] using hv
    rw [if_pos (.inl rfl), needsIdentityOnly_iff]
    constructor
    · rintro ⟨⟨⟨⟨hs, hn⟩, hr⟩, hu⟩, hq, ht⟩
      exact ⟨hs, hu, fun _ => hn, fun h => absurd h (by decide), fun h => absurd h (by decide),
        fun _ => hr.resolve_left (by decide), fun _ => hq, fun _ => ht,
        fun h => absurd h (by decide)⟩
    · rintro ⟨hs, hu, hn, _, _, hr, hq, ht, _⟩
      exact ⟨⟨⟨⟨hs, hn rfl⟩, .inr (hr (by decide))⟩, hu⟩, hq (.inl rfl), ht (.inl rfl)⟩
  | delete =>
    obtain rfl : verb = .delete := by simpa [Phase.verbs] using hv
    rw [if_pos (.inr rfl), needsIdentityOnly_iff]
    constructor
    · rintro ⟨⟨⟨⟨hs, hn⟩, _⟩, hu⟩, hq, ht⟩
      exact ⟨hs, hu, fun h => absurd h (by decide), fun _ => hn, fun h => absurd h (by decide),
        fun h => absurd rfl h, fun _ => hq, fun _ => ht, fun h => absurd h (by decide)⟩
    · rintro ⟨hs, hu, _, hn, _, _, hq, ht, _⟩
      exact ⟨⟨⟨⟨hs, hn rfl⟩, .inl rfl⟩, hu⟩, hq (.inr rfl), ht (.inr rfl)⟩

/-- The search for actions looks for methods that act on the resource. -/
theorem actsOn_iff {url : Url} (hu : url.endsInParameter = true) {m : Method} :
    actsOn url m = true ↔ Acts url m := by
  have hd : (m.operation.parameters.all fun p =>
        p.fromClient || !p.required || p.constant || p.location == .path || p.location == .body) =
        true ↔
      ∀ p ∈ m.operation.parameters, p.required = true → p.constant = false →
        p.fromClient = false → p.location = .path ∨ p.location = .body := by
    rw [List.all_eq_true]
    apply forall₂_congr
    intro p _
    cases p.fromClient <;> cases p.required <;> cases p.constant <;> simp
  simp only [actsOn, Bool.and_eq_true, beq_iff_eq, hd, Url.parent?_eq_some_iff]
  constructor
  · rintro ⟨⟨⟨hv, piece, hp, hc⟩, hl⟩, hd⟩
    rw [hc] at hl
    exact ⟨hv, ⟨piece, hp, (Url.child_endsInLiteral_iff hp hu).mp hl, hc⟩, hd⟩
  · rintro ⟨hv, ⟨piece, hp, hl, hc⟩, hd⟩
    refine ⟨⟨⟨hv, piece, hp, hc⟩, ?_⟩, hd⟩
    rw [hc]
    exact (Url.child_endsInLiteral_iff hp hu).mpr hl

/-- The first method on the URL of a create that qualifies for a verb. -/
def firstFor? (client : Client) (create : Binding) (schema : String) (verb : Verb) :
    Option Method :=
  (client.methods create.collection).find? fun m =>
    decide (client.Qualifies create schema verb m)

/-- What the methods of a collection decide about the resource at a position that is created
through it. -/
structure Decided (client : Client) (i : Nat) (r : Resource) (create : Binding) : Prop where
  refresh : r.refresh =
    (client.firstFor? create r.schema.name .get).map (client.bindingTo i create · none)
  delete : r.delete =
    (client.firstFor? create r.schema.name .delete).map (client.bindingTo i create · none)
  /-- a patch comes before a put, even if its body has no schema -/
  update : r.update =
    ((client.firstFor? create r.schema.name .patch).or
      (client.firstFor? create r.schema.name .put)).bind fun m =>
        (m.bodyType?.bind client.schema?).map fun body => client.bindingTo i create m (some body)
  acted : r.actions = none ↔ ∀ m ∈ client.methods create.collection, ¬ Acts create.url m
  actions : ∀ actions, r.actions = some actions →
    actions.resource = i ∧ actions.collection = create.collection ∧
      actions.methods.Pairwise (· < ·) ∧ ∀ j, j ∈ actions.methods ↔
        ∃ m, (client.methods create.collection)[j]? = some m ∧ Acts create.url m

/-- Verbs are tried in order, and for each the first method that qualifies. -/
theorem carrier?_eq (client : Client) (r : Resource) (create : Binding) {phase : Phase}
    (hp : phase ≠ .create) :
    client.carrier? r create phase =
      phase.verbs.findSome? (client.firstFor? create r.schema.name) := by
  have hm : (phase.verbs.map fun verb =>
        (client.methods create.collection).find? (client.carries r create phase verb)) =
      phase.verbs.map (client.firstFor? create r.schema.name) := by
    apply List.map_congr_left
    intro verb hv
    apply List.find?_congr
    intro m _
    rw [Bool.eq_iff_iff, decide_eq_true_iff, carries_iff hp hv]
  have hf := congrArg (List.findSome? id) hm
  rw [List.findSome?_map, List.findSome?_map] at hf
  exact hf

/-- The search for actions finds the positions of all methods that act. -/
theorem actionsOn_eq_some {client : Client} {i : Nat} {create : Binding} {actions : Actions}
    (hu : create.url.endsInParameter = true) (h : client.actionsOn i create = some actions) :
    actions.resource = i ∧ actions.collection = create.collection ∧
      actions.methods.Pairwise (· < ·) ∧ ∀ j, j ∈ actions.methods ↔
        ∃ m, (client.methods create.collection)[j]? = some m ∧ Acts create.url m := by
  rw [actionsOn] at h
  split at h
  · cases h
  · cases h
    refine ⟨rfl, rfl, (increasing_positions _ _).sorted, ?_⟩
    intro j
    simp only [mem_positions, actsOn_iff hu]

/-- No list of actions is the same as no method that acts on the resource. -/
theorem actionsOn_eq_none_iff {client : Client} {i : Nat} {create : Binding}
    (hu : create.url.endsInParameter = true) :
    client.actionsOn i create = none ↔
      ∀ m ∈ client.methods create.collection, ¬ Acts create.url m := by
  have he : client.actionsOn i create = none ↔
      ((client.methods create.collection).zipIdx.filter
        fun p => actsOn create.url p.1).map (·.2) = [] := by
    rw [actionsOn, List.map_eq_nil_iff, ← List.isEmpty_iff]
    simp
  rw [he, List.eq_nil_iff_forall_not_mem]
  simp only [mem_positions, actsOn_iff hu]
  constructor
  · intro h m hm ha
    obtain ⟨j, hj⟩ := List.mem_iff_getElem?.mp hm
    exact h j ⟨m, hj, ha⟩
  · rintro h j ⟨m, hj, ha⟩
    exact h m (List.mem_of_getElem? hj) ha

/-- The searches for phases and actions decide what is bound. -/
theorem decided_of_follow {client : Client} {i : Nat} {r : Resource} {create : Binding}
    (hu : create.url.endsInParameter = true)
    (hf : ∀ phase ≠ .create, r.binding? phase = client.follow phase i r create)
    (ha : r.actions = client.actionsOn i create) : client.Decided i r create := by
  have hb (phase : Phase) (hp : phase ≠ .create) (hn : phase ≠ .update) :
      r.binding? phase = (phase.verbs.findSome? (client.firstFor? create r.schema.name)).map
        (client.bindingTo i create · none) := by
    rw [hf phase hp, follow, carrier?_eq client r create hp]
    simp only [if_neg hn]
    exact Option.map_eq_bind.symm
  have hupdate : r.update = _ := hf .update (by decide)
  rw [follow, carrier?_eq client r create (by decide)] at hupdate
  constructor
  · have h := hb .refresh (by decide) (by decide)
    rwa [Phase.verbs, List.findSome?_singleton] at h
  · have h := hb .delete (by decide) (by decide)
    rwa [Phase.verbs, List.findSome?_singleton] at h
  · rw [hupdate, Phase.verbs, ← List.singleton_append, List.findSome?_append,
      List.findSome?_singleton, List.findSome?_singleton]
    rfl
  · rw [ha, actionsOn_eq_none_iff hu]
  · intro actions h
    rw [ha] at h
    exact actionsOn_eq_some hu h

end Client

/-- A resource with a create has been settled by an offer, once. -/
theorem Assembly.offered_of_create {a : Assembly} {service : Service}
    (lite : a.settings.fluentLite = true) {i : Nat} {r : Resource} {create : Binding}
    (hr : (a.client service).value.resources[i]? = some r) (hc : r.create = some create) :
    let start := a.unclassified service
    ∃ before f, ∃ trial : Trial, start.resources[i]? = some before ∧ f.resource = i ∧
      f ∈ start.offers trial.collection trial.candidates Category.priority ∧
      start.settled f before = { r with extraMethods := [] } := by
  intro start
  have hg := a.getElem?_client service lite i
  rw [hr, Option.map_some] at hg
  obtain ⟨before, hb, he⟩ := Option.map_eq_some_iff.mp hg.symm
  cases ho : (start.trials a.settings.associations).findSome? (start.offerFor i) with
  | none =>
    rw [ho, Option.elim_none] at he
    have hn : before.outline.create = r.create := by
      rw [outline_of_mem_unclassified (List.mem_of_getElem? hb), he]
    rw [hc] at hn
    cases hn
  | some f =>
    rw [ho, Option.elim_some] at he
    obtain ⟨trial, _, hf⟩ := List.exists_of_findSome?_eq_some ho
    exact ⟨before, f, trial, hb, key_of_find? Creation.resource hf, List.mem_of_find?_eq_some hf,
      he⟩

/-- A created resource is what settling made of the one before any classification. -/
theorem Assembly.settled_of_create {a : Assembly} {service : Service}
    (lite : a.settings.fluentLite = true) {i : Nat} {r : Resource} {create : Binding}
    (hr : (a.client service).value.resources[i]? = some r) (hc : r.create = some create) :
    let start := a.unclassified service
    ∃ before f, start.resources[i]? = some before ∧ f.resource = i ∧
      f.binding.url.endsInParameter = true ∧
      start.settled f before = { r with extraMethods := [] } := by
  intro start
  obtain ⟨before, f, trial, hb, hi, hm, he⟩ := offered_of_create lite hr hc
  exact ⟨before, f, hb, hi, (Client.offered_of_mem hm).url, he⟩

/-- In the client of a service, what is bound beside a create is decided by the methods of its
collection. -/
theorem Assembly.decided_of_create (a : Assembly) (service : Service)
    (lite : a.settings.fluentLite = true) {i : Nat} {r : Resource} {create : Binding}
    (hr : (a.client service).value.resources[i]? = some r) (hc : r.create = some create) :
    (a.client service).value.Decided i r create := by
  let start := a.unclassified service
  let client := (a.client service).value
  have ho : client.outline = start := a.outline_client service
  obtain ⟨before, f, hb, hi, hu, he⟩ := settled_of_create lite hr hc
  -- the searches were made before classification, and read no more than the outline
  have hbefore : before.outline = before := outline_of_mem_unclassified (List.mem_of_getElem? hb)
  have hout : r.outline = before := by
    have h := congrArg Resource.outline he
    exact h.symm.trans hbefore
  have hcreate : start.referred f.binding = create := by
    have h := congrArg Resource.create he
    exact Option.some.inj (h.trans hc)
  have hcu : create.url.endsInParameter = true := by
    rw [← hcreate]
    exact hu
  apply Client.decided_of_follow hcu
  · intro phase hp
    have hn : before.binding? phase = none := by
      rw [← hbefore, before.binding?_outline]
    calc r.binding? phase
        = (start.settled f before).binding? phase := by
          rw [he]
          rfl
      _ = start.followed phase f := by
          rw [Client.binding?_settled, hn, Option.or_none, Client.boundBy_of_ne hp]
      _ = start.follow phase i before create := by
          rw [Client.followed, hi, hb, Option.bind_some, hcreate]
      _ = client.follow phase i r create := by
          rw [← client.follow_outline, ho, hout]
  · have hn : before.actions = none := by
      rw [← hbefore]
      rfl
    calc r.actions
        = (start.settled f before).actions := by rw [he]
      _ = (start.actionsOn i create).or before.actions := by
          rw [← hi, ← hcreate]
          rfl
      _ = client.actionsOn i create := by
          rw [hn, Option.or_none, ← client.actionsOn_outline, ho]

/-- Tools are not updated, since the patch that is found sends what has no schema. -/
theorem decided_in_workshop :
    let client := ((Assembly.fresh .standard).client Workshop.service).value
    ∃ r create, client.resources[0]? = some r ∧ r.create = some create ∧ r.update = none ∧
      r.refresh.map (·.method) = some "get" ∧ r.actions.map (·.methods) = some [10, 11] ∧
      client.Decided 0 r create := by
  intro client
  have h : (client.resources[0]?.any fun r => r.create.isSome && decide (r.update = none) &&
      decide (r.refresh.map (·.method) = some "get") &&
      decide (r.actions.map (·.methods) = some [10, 11])) = true := by decide +kernel
  rw [Option.any_eq_true] at h
  obtain ⟨r, hr, hb⟩ := h
  simp only [Bool.and_eq_true, decide_eq_true_eq] at hb
  obtain ⟨⟨⟨hs, hu⟩, hf⟩, ha⟩ := hb
  obtain ⟨create, hc⟩ := Option.isSome_iff_exists.mp hs
  exact ⟨r, create, hr, hc, hu, hf, ha,
    Assembly.decided_of_create (.fresh .standard) Workshop.service rfl hr hc⟩

end Lifecycle
