import Lifecycle.Proofs.Creation

/-!
# What one classification does

`settle` says at once what `classify` does step by step: for each create that is found, its resource
is settled, that is, given its category, its create and whatever follows from the create, and the
collection lists the resource in each phase that is bound. The steps read creates, outlines and
nothing else, so none of them shows in what another one finds.
-/
namespace Lifecycle

open Indexed

namespace Client

def create? (client : Client) (i : Nat) : Option Binding :=
  client.resources[i]?.bind (·.create)

/-- What a phase of a resource is bound to after its create. -/
def follow (client : Client) (phase : Phase) (i : Nat) (r : Resource) (create : Binding) :
    Option Binding :=
  (client.carrier? r create phase).bind fun m =>
    if phase = .update then
      (m.bodyType?.bind client.schema?).map fun body =>
        client.bindingTo i create m (some body)
    else some (client.bindingTo i create m none)

theorem created?_eq (client : Client) (i : Nat) :
    client.created? i =
      client.resources[i]?.bind fun r => r.create.map fun create => (r, create) := by
  unfold created?
  cases client.resources[i]? with
  | none => rfl
  | some r => cases hc : r.create <;> simp [hc]

theorem value_followUp (client : Client) (phase : Phase) (i : Nat) :
    (client.followUp phase i).value =
      client.resources[i]?.bind fun r => r.create.bind (client.follow phase i r) := by
  unfold followUp
  rw [created?_eq]
  cases client.resources[i]? with
  | none => rfl
  | some r =>
    rw [Option.bind_some, Option.bind_some]
    cases r.create with
    | none => rfl
    | some create =>
      rw [Option.map_some, Option.bind_some, follow]
      dsimp only
      cases client.carrier? r create phase with
      | none => rfl
      | some m =>
        rw [Option.bind_some]
        by_cases hp : phase = .update
        · subst hp
          rw [if_pos rfl]
          change (client.bodySchema m >>= _ : Logged (Option Binding)).value = _
          rw [Logged.value_bind, value_bodySchema]
          cases m.bodyType?.bind client.schema? <;> rfl
        · have hb : (phase == .update) = false := beq_eq_false_iff_ne.mpr hp
          rw [if_neg hp]
          simp only [hb]
          rfl

theorem actions?_eq (client : Client) (i : Nat) :
    client.actions? i = (client.create? i).bind (client.actionsOn i) := by
  unfold actions? create?
  rw [created?_eq]
  cases client.resources[i]? with
  | none => rfl
  | some r =>
    rw [Option.bind_some, Option.bind_some]
    cases r.create <;> rfl

theorem references_outline (client : Client) (b : Binding) :
    client.outline.references b = client.references b := by
  unfold references methodsAt
  rw [methods_outline]

theorem follow_outline (client : Client) (phase : Phase) (i : Nat) (r : Resource)
    (create : Binding) :
    client.outline.follow phase i r.outline create = client.follow phase i r create := by
  unfold follow carrier? carries bindingTo
  simp only [methods_outline, references_outline]
  rfl

theorem actionsOn_outline (client : Client) (i : Nat) (create : Binding) :
    client.outline.actionsOn i create = client.actionsOn i create := by
  unfold actionsOn
  rw [methods_outline]

/-! ### The client while a pass goes on -/

/-- What a phase of the resource of a create is bound to. -/
def followed (client : Client) (phase : Phase) (f : Creation) : Option Binding :=
  client.resources[f.resource]?.bind fun r =>
    client.follow phase f.resource r (client.referred f.binding)

/-- All creates that were found are bound, and nothing that is read has changed. -/
structure Opened (client : Client) (found : List Creation) (k : Client) : Prop where
  outline : k.outline = client.outline
  create : ∀ f ∈ found, k.create? f.resource = some (client.referred f.binding)

theorem create?_modifyResource (client : Client) (i : Nat) {change : Resource → Resource}
    (h : ∀ r, (change r).create = r.create) (j : Nat) :
    (client.modifyResource i change).create? j = client.create? j := by
  unfold create? modifyResource
  rw [List.getElem?_modify]
  cases client.resources[j]? with
  | none => rfl
  | some r => by_cases hij : i = j <;> simp [hij, h]

namespace Opened

variable {client k : Client} {found : List Creation} {f : Creation}

theorem value_followUp (h : Opened client found k) (hf : f ∈ found) (phase : Phase) :
    (k.followUp phase f.resource).value = client.followed phase f := by
  obtain ⟨r, hr, hc⟩ := Option.bind_eq_some_iff.mp (h.create f hf)
  have ho : client.resources[f.resource]?.map Resource.outline = some r.outline := by
    rw [← getElem?_outline, ← h.outline, getElem?_outline, hr, Option.map_some]
  obtain ⟨r', hr', he⟩ := Option.map_eq_some_iff.mp ho
  rw [Client.value_followUp, followed, hr, hr', Option.bind_some, Option.bind_some, hc,
    Option.bind_some, ← follow_outline, ← follow_outline client, h.outline, he]

theorem actions?_eq (h : Opened client found k) (hf : f ∈ found) :
    k.actions? f.resource = client.actionsOn f.resource (client.referred f.binding) := by
  rw [Client.actions?_eq, h.create f hf, Option.bind_some, ← actionsOn_outline, h.outline,
    actionsOn_outline]

theorem bind (h : Opened client found k) {phase : Phase} (hp : phase ≠ .create) (b : Binding) :
    Opened client found (k.bind phase b) := by
  constructor
  · rw [outline_bind, h.outline]
  · intro f hf
    rw [← h.create f hf]
    apply create?_modifyResource
    intro r
    cases phase with
    | create => exact absurd rfl hp
    | update => rfl
    | refresh => rfl
    | delete => rfl

theorem modifyResource (h : Opened client found k) (i : Nat) {change : Resource → Resource}
    (ho : ∀ r, (change r).outline = r.outline) (hc : ∀ r, (change r).create = r.create) :
    Opened client found (k.modifyResource i change) := by
  constructor
  · rw [outline_modifyResource _ _ ho, h.outline]
  · intro f hf
    rw [create?_modifyResource k i hc, h.create f hf]

end Opened

/-! ### One pass -/

/-- The client with a phase bound for a create that was found, if something is found for it. -/
def bindFound (client : Client) (phase : Phase) (k : Client) (f : Creation) : Client :=
  (client.followed phase f).elim k (k.bind phase)

/-- A resource with a phase bound for its create, if anything is found for the phase. -/
def followInto (client : Client) (phase : Phase) (f : Creation) (r : Resource) : Resource :=
  (client.followed phase f).elim r (r.bind · phase)

/-- A resource with the actions on it, if there are any. -/
def actInto (client : Client) (f : Creation) (r : Resource) : Resource :=
  { r with
    actions := (client.actionsOn f.resource (client.referred f.binding)).or r.actions }

/-- The client with the actions bound on the resource of a create that was found. -/
def actFound (client k : Client) (f : Creation) : Client :=
  k.modifyResource f.resource (client.actInto f)

/-- Whether a phase is bound for a create. -/
def isFollowed (client : Client) (phase : Phase) (f : Creation) : Bool :=
  (client.followed phase f).isSome

/-- A resource with a create and all that follows from it. -/
def settled (client : Client) (f : Creation) (r : Resource) : Resource :=
  { r with
    category := f.category
    create := some (client.referred f.binding)
    update := (client.followed .update f).or r.update
    refresh := (client.followed .refresh f).or r.refresh
    delete := (client.followed .delete f).or r.delete
    actions := (client.actionsOn f.resource (client.referred f.binding)).or r.actions }

/-- A collection that lists the resources created through it in each phase that is bound. -/
def listed (client : Client) (found : List Creation) (c : Collection) : Collection :=
  let positions (phase : Phase) := (found.filter (client.isFollowed phase)).map Creation.resource
  { c with
    creates := c.creates ++ found.map Creation.resource
    updates := c.updates ++ positions .update
    refreshes := c.refreshes ++ positions .refresh
    deletes := c.deletes ++ positions .delete }

/-- The client after some creates were found in a collection. -/
def settle (client : Client) (collection : Nat) (found : List Creation) : Client :=
  { client with
    resources := client.resources.mapIdx (patch Creation.resource client.settled found)
    collections := client.collections.modify collection (client.listed found) }

/-- What a create binds in a phase. -/
def boundBy (client : Client) (f : Creation) : Phase → Option Binding
  | .create => some (client.referred f.binding)
  | phase => client.followed phase f

theorem boundBy_of_ne {client : Client} {f : Creation} {phase : Phase} (hp : phase ≠ .create) :
    client.boundBy f phase = client.followed phase f := by
  cases phase with
  | create => exact absurd rfl hp
  | update => rfl
  | refresh => rfl
  | delete => rfl

theorem binding?_settled (client : Client) (f : Creation) (r : Resource) (phase : Phase) :
    (client.settled f r).binding? phase = (client.boundBy f phase).or (r.binding? phase) := by
  cases phase <;> rfl

theorem bindingTo_of_follow {client : Client} {phase : Phase} {i : Nat} {r : Resource}
    {create b : Binding} (h : client.follow phase i r create = some b) :
    ∃ m body, client.carrier? r create phase = some m ∧ b = client.bindingTo i create m body := by
  obtain ⟨m, hm, hb⟩ := Option.bind_eq_some_iff.mp h
  split at hb
  · obtain ⟨body, _, rfl⟩ := Option.map_eq_some_iff.mp hb
    exact ⟨m, some body, hm, rfl⟩
  · cases hb
    exact ⟨m, none, hm, rfl⟩

theorem bindingTo_of_followed {client : Client} {phase : Phase} {f : Creation} {b : Binding}
    (h : client.followed phase f = some b) :
    ∃ m body, b = client.bindingTo f.resource (client.referred f.binding) m body := by
  obtain ⟨r, _, hf⟩ := Option.bind_eq_some_iff.mp h
  obtain ⟨m, body, _, hb⟩ := bindingTo_of_follow hf
  exact ⟨m, body, hb⟩

theorem resources_foldl_bindFound (client : Client) (phase : Phase) {found : List Creation}
    (h : (found.map Creation.resource).Nodup) (k : Client) :
    (found.foldl (client.bindFound phase) k).resources =
      k.resources.mapIdx (patch Creation.resource (client.followInto phase) found) := by
  rw [← foldl_modify_eq_mapIdx h]
  symm
  apply List.foldl_hom Client.resources
  intro k f
  unfold bindFound followInto
  cases hb : client.followed phase f with
  | none => exact List.modify_id _ _
  | some b =>
    obtain ⟨m, body, rfl⟩ := bindingTo_of_followed hb
    rfl

theorem collections_foldl_bindFound (client : Client) (phase : Phase) {collection : Nat}
    {found : List Creation} (h : ∀ f ∈ found, f.binding.collection = collection) (k : Client) :
    (found.foldl (client.bindFound phase) k).collections = k.collections.modify collection
      (·.enlistAll ((found.filter (client.isFollowed phase)).map Creation.resource) phase) := by
  rw [Collection.modify_enlistAll, List.foldl_map, List.foldl_filter]
  induction found generalizing k with
  | nil => rfl
  | cons f rest ih =>
    rw [List.forall_mem_cons] at h
    rw [List.foldl_cons, List.foldl_cons, ih h.2]
    congr 1
    unfold bindFound isFollowed
    cases hb : client.followed phase f with
    | none => rfl
    | some b =>
      obtain ⟨m, body, rfl⟩ := bindingTo_of_followed hb
      rw [← h.1]
      rfl

theorem resources_foldl_actFound (client : Client) {found : List Creation}
    (h : (found.map Creation.resource).Nodup) (k : Client) :
    (found.foldl client.actFound k).resources =
      k.resources.mapIdx (patch Creation.resource client.actInto found) := by
  rw [← foldl_modify_eq_mapIdx h]
  symm
  exact List.foldl_hom Client.resources fun k f => rfl

theorem collections_foldl_actFound (client : Client) (found : List Creation) (k : Client) :
    (found.foldl client.actFound k).collections = k.collections := by
  induction found generalizing k with
  | nil => rfl
  | cons f rest ih =>
    rw [List.foldl_cons, ih]
    rfl

/-- All that is done to the resource of a create. -/
theorem settled_eq (client : Client) (f : Creation) (r : Resource) :
    client.actInto f (client.followInto .delete f (client.followInto .refresh f
      (client.followInto .update f (client.opened f r)))) = client.settled f r := by
  unfold settled followInto actInto opened
  cases client.followed .update f <;> cases client.followed .refresh f <;>
    cases client.followed .delete f <;> rfl

/-- The creates are bound first; the other phases read what stands then. -/
theorem opened_withCreates (client : Client) (collection : Nat) (candidates : List Nat) :
    let found := client.creations collection candidates
    Opened client found (client.withCreates collection found) := by
  intro found
  have hn : (found.map Creation.resource).Nodup := client.nodup_creations collection candidates
  constructor
  · unfold outline withCreates
    rw [Client.mk.injEq]
    refine ⟨rfl, rfl, ?_, ?_⟩
    · apply map_mapIdx_patch_of_eq
      exact fun f r => rfl
    · apply map_modify_of_eq
      exact fun c => c.outline_enlistAll _ _
  · intro f hf
    obtain ⟨r, hr⟩ := (offered_of_mem_creations hf).exists_resource
    unfold create? withCreates
    rw [List.getElem?_mapIdx, hr, Option.map_some, patch_of_mem hn hf]
    rfl

namespace Opened

variable {client k : Client} {found : List Creation} {f : Creation}

theorem value_bindFollowUp (h : Opened client found k) (hf : f ∈ found) (phase : Phase) :
    (k.bindFollowUp phase f.resource).value.1 = client.bindFound phase k f := by
  unfold bindFollowUp bindFound
  rw [Logged.value_bind, h.value_followUp hf]
  cases client.followed phase f <;> rfl

theorem bindFound (h : Opened client found k) {phase : Phase} (hp : phase ≠ .create)
    (f : Creation) : Opened client found (client.bindFound phase k f) := by
  unfold Client.bindFound
  cases client.followed phase f with
  | none => exact h
  | some b => exact h.bind hp b

/-- Binding a phase for all resources that were created binds what follows from each create. -/
theorem foldl_bindFollowUp (h : Opened client found k) (phase : Phase) (hp : phase ≠ .create) :
    (found.map Creation.resource).foldl (fun k i => (k.bindFollowUp phase i).value.1) k =
        found.foldl (client.bindFound phase) k ∧
      Opened client found (found.foldl (client.bindFound phase) k) := by
  rw [List.foldl_map]
  apply foldl_eq_of_invariant (P := Opened client found) _ h
  intro k hk f hf
  exact ⟨hk.value_bindFollowUp hf phase, hk.bindFound hp f⟩

theorem bindActions (h : Opened client found k) (hf : f ∈ found) :
    (k.bindActions f.resource).1 = client.actFound k f := by
  unfold Client.bindActions actFound actInto
  rw [h.actions?_eq hf]
  cases client.actionsOn f.resource (client.referred f.binding) with
  | none =>
    unfold Client.modifyResource
    exact congrArg (fun resources => { k with resources }) (List.modify_id _ _).symm
  | some actions => rfl

/-- Actions found one after the other are found as if at once. -/
theorem foldl_bindActions (h : Opened client found k) :
    (found.map Creation.resource).foldl (fun k i => (k.bindActions i).1) k =
        found.foldl client.actFound k ∧
      Opened client found (found.foldl client.actFound k) := by
  rw [List.foldl_map]
  apply foldl_eq_of_invariant (P := Opened client found) _ h
  intro k hk f hf
  exact ⟨hk.bindActions hf, hk.modifyResource f.resource (fun _ => rfl) fun _ => rfl⟩

end Opened

/-- One classification settles the resources of all creates that it finds. -/
theorem value_classify (client : Client) (collection : Nat) (candidates : List Nat) :
    (client.classify collection candidates).value =
      client.settle collection (client.creations collection candidates) := by
  let found := client.creations collection candidates
  let opened := client.withCreates collection found
  have hn : (found.map Creation.resource).Nodup := client.nodup_creations collection candidates
  have hc : ∀ f ∈ found, f.binding.collection = collection :=
    fun f hf => (offered_of_mem_creations hf).place
  -- each phase finds what follows from the creates, whatever other phases have bound
  obtain ⟨hu, hu'⟩ := (client.opened_withCreates collection candidates).foldl_bindFollowUp
    .update (by decide)
  obtain ⟨hr, hr'⟩ := hu'.foldl_bindFollowUp .refresh (by decide)
  obtain ⟨hd, hd'⟩ := hr'.foldl_bindFollowUp .delete (by decide)
  have hv : (client.classify collection candidates).value =
      (found.map Creation.resource).foldl (fun k i => (k.bindActions i).1)
        (followUps.foldl (fun k phase => (found.map Creation.resource).foldl
          (fun k i => (k.bindFollowUp phase i).value.1) k) opened) := by
    unfold classify
    rw [Logged.value_bind, value_bindCreates]
    simp only [Logged.value_bind, Logged.value_pure, Logged.value_foldlM]
    rfl
  obtain ⟨ha, ha'⟩ := hd'.foldl_bindActions
  rw [hv, followUps, List.foldl_cons, List.foldl_cons, List.foldl_cons, List.foldl_nil, hu, hr, hd,
    ha, settle, Client.mk.injEq]
  refine ⟨name_eq_of_outline ha'.outline, schemas_eq_of_outline ha'.outline, ?_, ?_⟩
  · rw [resources_foldl_actFound _ hn, resources_foldl_bindFound _ _ hn,
      resources_foldl_bindFound _ _ hn, resources_foldl_bindFound _ _ hn, withCreates,
      mapIdx_patch_patch, mapIdx_patch_patch, mapIdx_patch_patch, mapIdx_patch_patch]
    simp only [settled_eq]
    rfl
  · rw [collections_foldl_actFound, collections_foldl_bindFound _ _ hc,
      collections_foldl_bindFound _ _ hc, collections_foldl_bindFound _ _ hc, withCreates,
      List.modify_modify_eq, List.modify_modify_eq, List.modify_modify_eq]
    rfl

/-! ### What a pass reads -/

theorem referred_congr {a b : Client} (h : a.outline = b.outline) (binding : Binding) :
    a.referred binding = b.referred binding := by
  unfold referred
  rw [methods_eq_of_outline h]

theorem followed_congr {a b : Client} (h : a.outline = b.outline) (phase : Phase) (f : Creation) :
    a.followed phase f = b.followed phase f := by
  have followed_outline (client : Client) :
      client.followed phase f = client.outline.resources[f.resource]?.bind fun r =>
        client.outline.follow phase f.resource r (client.referred f.binding) := by
    unfold followed
    rw [getElem?_outline, Option.bind_map]
    congr 1
    funext r
    exact (client.follow_outline phase f.resource r _).symm
  rw [followed_outline, followed_outline, h, referred_congr h]

theorem settled_congr {a b : Client} (h : a.outline = b.outline) : a.settled = b.settled := by
  funext f r
  unfold settled
  rw [followed_congr h, followed_congr h, followed_congr h, referred_congr h,
    ← actionsOn_outline, h, actionsOn_outline]

theorem listed_congr {a b : Client} (h : a.outline = b.outline) : a.listed = b.listed := by
  have hf : a.isFollowed = b.isFollowed := by
    funext phase f
    exact congrArg Option.isSome (followed_congr h phase f)
  funext found c
  unfold listed
  rw [hf]

theorem outline_settle (client : Client) (collection : Nat) (found : List Creation) :
    (client.settle collection found).outline = client.outline := by
  unfold outline settle
  rw [Client.mk.injEq]
  refine ⟨rfl, rfl, ?_, ?_⟩
  · apply map_mapIdx_patch_of_eq
    exact fun f r => rfl
  · apply map_modify_of_eq
    exact fun c => rfl

/-- Classification binds and lists, and leaves the outline as it is. -/
theorem outline_classify (client : Client) (collection : Nat) (candidates : List Nat) :
    (client.classify collection candidates).value.outline = client.outline := by
  rw [value_classify, outline_settle]

end Client

end Lifecycle
