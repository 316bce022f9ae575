import Mathlib.Logic.Equiv.Basic
import Lifecycle.Proofs.Gist

/-!
# The order of schemas

Schemas are looked up by name, and resources are tried by what they wrap. If the names of resources
differ, so do those of schemas, and a service with its schemas in another order is made into the
same client with resources renumbered: every resource is found again by its name, and collections
list resources of the same names in the same order.
-/
namespace Lifecycle

open Indexed

variable {ρ : Equiv.Perm Nat}

namespace Indexed

variable {α : Type} {l l' : List α}

/-- A renumbering of the positions behind the first one. -/
def behindFirst (ρ : Equiv.Perm Nat) : Equiv.Perm Nat where
  toFun
    | 0 => 0
    | i + 1 => ρ i + 1
  invFun
    | 0 => 0
    | i + 1 => ρ.symm i + 1
  left_inv i := by cases i <;> simp
  right_inv i := by cases i <;> simp

/-- Entries in another order are entries at other positions. -/
theorem exists_renumbering (h : l.Perm l') : ∃ ρ : Equiv.Perm Nat, ∀ i, l'[ρ i]? = l[i]? := by
  induction h with
  | nil => exact ⟨Equiv.refl Nat, fun i => rfl⟩
  | cons x _ ih =>
    obtain ⟨ρ, hρ⟩ := ih
    refine ⟨behindFirst ρ, fun i => ?_⟩
    cases i with
    | zero => rfl
    | succ i => exact hρ i
  | swap x y l =>
    refine ⟨Equiv.swap 0 1, fun i => ?_⟩
    rcases i with _ | _ | i
    · rfl
    · rfl
    · rw [Equiv.swap_apply_of_ne_of_ne (by omega) (by omega)]
      rfl
  | trans _ _ ih₁ ih₂ =>
    obtain ⟨ρ₁, h₁⟩ := ih₁
    obtain ⟨ρ₂, h₂⟩ := ih₂
    exact ⟨ρ₁.trans ρ₂, fun i => (h₂ (ρ₁ i)).trans (h₁ i)⟩

/-- Of keys that differ, one is found where an entry has it. -/
theorem findIdx?_key_eq_some_iff {β : Type} [DecidableEq β] {key : α → β}
    (h : (l.map key).Nodup) {b : β} {i : Nat} :
    l.findIdx? (key · == b) = some i ↔ l[i]?.map key = some b := by
  rw [List.findIdx?_eq_some_iff_getElem]
  constructor
  · rintro ⟨hi, hb, _⟩
    rw [List.getElem?_eq_getElem hi, Option.map_some, eq_of_beq hb]
  · intro hb
    obtain ⟨x, hx, hk⟩ := Option.map_eq_some_iff.mp hb
    obtain ⟨hi, rfl⟩ := List.getElem?_eq_some_iff.mp hx
    refine ⟨hi, beq_iff_eq.mpr hk, fun j hj hk' => ?_⟩
    have hjl : j < l.length := Nat.lt_trans hj hi
    have hji : (l.map key)[j]? = (l.map key)[i]? := by
      rw [List.getElem?_map, List.getElem?_map, List.getElem?_eq_getElem hi,
        List.getElem?_eq_getElem hjl, Option.map_some, Option.map_some, hk, eq_of_beq hk']
    have he := (List.getElem?_inj (by rwa [List.length_map]) h).mp hji
    exact absurd he (Nat.ne_of_lt hj)

variable {β : Type} [DecidableEq β] {key : α → β}

/-- The only entry of a key is found at its new position. -/
theorem findIdx?_renumbered (hp : l.Perm l') (hρ : ∀ i, l'[ρ i]? = l[i]?)
    (h : (l.map key).Nodup) (b : β) :
    l'.findIdx? (key · == b) = (l.findIdx? (key · == b)).map ρ := by
  apply Option.ext
  intro j
  have hj := hρ (ρ.symm j)
  rw [ρ.apply_symm_apply] at hj
  rw [findIdx?_key_eq_some_iff ((hp.map key).nodup_iff.mp h), hj, ← findIdx?_key_eq_some_iff h,
    Option.map_eq_some_iff]
  constructor
  · intro hi
    exact ⟨ρ.symm j, hi, ρ.apply_symm_apply j⟩
  · rintro ⟨i, hi, rfl⟩
    rwa [ρ.symm_apply_apply]

/-- Entries are found by their keys in any order. -/
theorem find?_key_of_perm (hp : l.Perm l') (h : (l.map key).Nodup) (b : β) :
    l'.find? (key · == b) = l.find? (key · == b) := by
  obtain ⟨ρ, hρ⟩ := exists_renumbering hp
  rw [List.find?_eq_bind_findIdx?_getElem?, List.find?_eq_bind_findIdx?_getElem?,
    findIdx?_renumbered hp hρ h, Option.bind_map]
  congr 1
  funext i
  exact hρ i

end Indexed

/-! ### Clients with other numbers -/

def Binding.unnumbered (b : Binding) : Binding :=
  { b with resource := 0 }

def Actions.unnumbered (a : Actions) : Actions :=
  { a with resource := 0 }

/-- A resource without the numbers of resources in what is bound to it. -/
def Resource.unnumbered (r : Resource) : Resource :=
  { r with
    create := r.create.map Binding.unnumbered
    update := r.update.map Binding.unnumbered
    refresh := r.refresh.map Binding.unnumbered
    delete := r.delete.map Binding.unnumbered
    actions := r.actions.map Actions.unnumbered }

theorem Resource.unnumbered_renumber (r : Resource) :
    (r.renumber ρ).unnumbered = r.unnumbered := by
  unfold Resource.unnumbered Resource.renumber
  simp only [Option.map_map]
  rfl

/-- Two views that have all parts between them tell entries apart. -/
theorem Indexed.eq_of_views {α γ δ : Type} {view : α → γ} {other : α → δ}
    (h : ∀ {a b}, view a = view b → other a = other b → a = b) {x y : Option α}
    (hv : x.map view = y.map view) (ho : x.map other = y.map other) : x = y := by
  cases x with
  | none => exact (Option.map_eq_none_iff.mp hv.symm).symm
  | some a =>
    obtain ⟨b, rfl, hb⟩ := Option.map_eq_some_iff.mp hv.symm
    rw [h hb (Option.some.inj ho).symm]

/-- Gist and outline have all parts of a resource between them. -/
theorem Resource.eq_of_gist_of_outline {r s : Resource} (hg : r.gist = s.gist)
    (ho : r.outline = s.outline) : r = s := by
  cases r
  cases s
  simp only [gist, outline, Resource.mk.injEq] at hg ho ⊢
  obtain ⟨_, _, _, hfound⟩ := hg
  exact ⟨ho.1, ho.2.1, ho.2.2.1, hfound⟩

theorem Collection.eq_of_gist_of_outline {c d : Collection} (hg : c.gist = d.gist)
    (ho : c.outline = d.outline) : c = d := by
  cases c
  cases d
  simp only [gist, outline, Collection.mk.injEq] at hg ho ⊢
  obtain ⟨_, _, hfound⟩ := hg
  exact ⟨ho.1, ho.2.1, hfound⟩

namespace Client

/-- The names of resources at some positions. -/
def namesAt (client : Client) (positions : List Nat) : List (Option String) :=
  positions.map fun i => client.resources[i]?.map (·.name)

/-- Two collections that agree, with the resources they list by name. -/
structure SameCollection (client client' : Client) (c c' : Collection) : Prop where
  name : c'.name = c.name
  methods : c'.methods = c.methods
  bound : ∀ phase, client'.namesAt (c'.bound phase) = client.namesAt (c.bound phase)
  extraMethods : c'.extraMethods = c.extraMethods

/-- Two clients that agree up to the numbers of resources. -/
structure SameByName (client client' : Client) : Prop where
  resource : ∀ name,
    (client'.resources.find? (·.name == name)).map Resource.unnumbered =
      (client.resources.find? (·.name == name)).map Resource.unnumbered
  collections : List.Forall₂ (client.SameCollection client') client.collections
    client'.collections

/-- A client with the resources of another one at other positions. -/
structure Renumbers (ρ : Equiv.Perm Nat) (k k' : Client) : Prop where
  resources : ∀ i, k'.resources[ρ i]? = k.resources[i]?.map (Resource.renumber ρ)
  collections : k'.collections = k.collections.map (Collection.renumber ρ)

theorem Renumbers.namesAt {k k' : Client} (h : Renumbers ρ k k') (positions : List Nat) :
    k'.namesAt (positions.map ρ) = k.namesAt positions := by
  unfold Client.namesAt
  rw [List.map_map]
  congr 1
  funext i
  rw [Function.comp_apply, h.resources, Option.map_map]
  rfl

/-- Clients that differ by positions are the same when read by names. -/
theorem Renumbers.sameByName {k k' : Client} (h : Renumbers ρ k k')
    (hn : ∀ name, k'.resourceNamed? name = (k.resourceNamed? name).map ρ) :
    k.SameByName k' := by
  constructor
  · intro name
    have hf := hn name
    unfold resourceNamed? at hf
    rw [List.find?_eq_bind_findIdx?_getElem?, List.find?_eq_bind_findIdx?_getElem?, hf]
    cases k.resources.findIdx? (·.name == name) with
    | none => rfl
    | some i =>
      rw [Option.map_some, Option.bind_some, Option.bind_some, h.resources, Option.map_map]
      congr 1
      funext r
      exact r.unnumbered_renumber
  · rw [h.collections, List.forall₂_map_right_iff, List.forall₂_same]
    intro c _
    refine ⟨rfl, rfl, ?_, rfl⟩
    intro phase
    rw [← h.namesAt]
    cases phase <;> rfl

/-- Of the gist and the outline of a client nothing is missing. -/
theorem Mirrors.renumbers {k k' : Client} (h : Mirrors ρ k k'.gist)
    (hr : ∀ i, k'.outline.resources[ρ i]? = k.outline.resources[i]?)
    (hc : k'.outline.collections = k.outline.collections) : Renumbers ρ k k' := by
  constructor
  · intro i
    have hg := h.resources i
    have ho := hr i
    change (k'.resources.map Resource.gist)[ρ i]? = _ at hg
    rw [List.getElem?_map] at hg
    rw [getElem?_outline, getElem?_outline] at ho
    apply eq_of_views @Resource.eq_of_gist_of_outline
    · rw [hg, Option.map_map]
      rfl
    · rw [ho, Option.map_map]
      rfl
  · apply List.ext_getElem?
    intro j
    have hg := congrArg (·[j]?) h.collections
    have ho := congrArg (·[j]?) hc
    change (k'.collections.map Collection.gist)[j]? = _ at hg
    change (k'.collections.map Collection.outline)[j]? = (k.collections.map Collection.outline)[j]?
      at ho
    rw [List.getElem?_map, List.getElem?_map] at hg ho
    rw [List.getElem?_map]
    apply eq_of_views @Collection.eq_of_gist_of_outline
    · rw [hg, Option.map_map]
      rfl
    · rw [ho, Option.map_map]
      rfl

end Client

/-! ### Schemas in another order -/

theorem findSchema_of_perm {schemas schemas' : List Schema} (hp : schemas.Perm schemas')
    (hn : (schemas.map (·.name)).Nodup) : findSchema schemas' = findSchema schemas :=
  funext fun name => find?_key_of_perm hp hn name

theorem ancestorsFrom_congr {schemas schemas' : List Schema}
    (h : findSchema schemas' = findSchema schemas) (fuel : Nat) (parent : Option String) :
    ancestorsFrom schemas' fuel parent = ancestorsFrom schemas fuel parent := by
  induction fuel generalizing parent with
  | zero => rfl
  | succ fuel ih =>
    cases parent with
    | none => rfl
    | some name =>
      rw [ancestorsFrom, ancestorsFrom, h]
      cases findSchema schemas name with
      | none => rfl
      | some s => exact congrArg (s :: ·) (ih s.parent)

/-- The order does not matter to a lineage either, which is cut at the number of schemas. -/
theorem mergedProperties_of_perm {schemas schemas' : List Schema} (hp : schemas.Perm schemas')
    (hn : (schemas.map (·.name)).Nodup) (s : Schema) :
    mergedProperties schemas' s = mergedProperties schemas s := by
  unfold mergedProperties ancestors
  rw [ancestorsFrom_congr (findSchema_of_perm hp hn), hp.length_eq]

/-- The client of a service with its schemas in another order, before classification: the same
resources at other positions. -/
theorem Assembly.unclassified_of_perm (a : Assembly) (service : Service) {schemas : List Schema}
    (hp : service.schemas.Perm schemas) (hn : (service.schemas.map (·.name)).Nodup) :
    (a.unclassified service).resources.Perm (a.unclassified { service with schemas }).resources ∧
      (a.unclassified { service with schemas }).schema? = (a.unclassified service).schema? ∧
      (a.unclassified { service with schemas }).collections =
        (a.unclassified service).collections := by
  have hf := findSchema_of_perm hp hn
  have hw : (a.meetSchemas { service with schemas }).wrapped = (a.meetSchemas service).wrapped := by
    unfold meetSchemas Service.returnedSchemas
    dsimp only
    rw [hf]
  have ho : Resource.ofSchema schemas = Resource.ofSchema service.schemas := by
    funext s
    unfold Resource.ofSchema
    rw [mergedProperties_of_perm hp hn]
  refine ⟨?_, hf, rfl⟩
  unfold unclassified
  dsimp only
  rw [hw, ho]
  exact (hp.filter _).map _

/-- If the resource names of schemas differ, so do the names of resources and of what they wrap. -/
theorem Assembly.nodup_names_unclassified (a : Assembly) (service : Service)
    (hn : (service.schemas.map (resourceName ·.name)).Nodup) :
    ((a.unclassified service).resources.map (·.name)).Nodup ∧
      ((a.unclassified service).resources.map (·.schema.name)).Nodup := by
  have hnames : (service.schemas.map (·.name)).Nodup := by
    apply List.Nodup.of_map resourceName
    rwa [List.map_map]
  unfold unclassified
  dsimp only
  rw [List.map_map, List.map_map]
  exact ⟨hn.sublist (List.filter_sublist.map _), hnames.sublist (List.filter_sublist.map _)⟩

/-- Nothing that could be renumbered is in a client before classification. -/
theorem Assembly.renumber_of_mem_unclassified {a : Assembly} {service : Service} {r : Resource}
    (h : r ∈ (a.unclassified service).resources) : r.renumber ρ = r := by
  rw [← outline_of_mem_unclassified h]
  rfl

/-- Before classification, no more than the positions of resources depends on the order. -/
theorem Assembly.mirrors_unclassified {a : Assembly} {service : Service} {schemas : List Schema}
    (hp : service.schemas.Perm schemas) (hn : (service.schemas.map (·.name)).Nodup)
    (hρ : ∀ i, (a.unclassified { service with schemas }).resources[ρ i]? =
      (a.unclassified service).resources[i]?) :
    Client.Mirrors ρ (a.unclassified service)
      (a.unclassified { service with schemas }).gist := by
  obtain ⟨-, hschema, hcollections⟩ := a.unclassified_of_perm service hp hn
  let start' := a.unclassified { service with schemas }
  constructor
  · intro name
    rw [start'.mirrors_gist.schema?, hschema]
  · intro i
    change (start'.resources.map Resource.gist)[ρ i]? = _
    rw [List.getElem?_map, hρ]
    apply Option.map_congr
    intro r hr
    rw [renumber_of_mem_unclassified (List.mem_of_getElem? hr)]
  · change start'.collections.map Collection.gist = _
    rw [hcollections]
    apply List.map_congr_left
    intro c hc
    obtain ⟨group, _, rfl⟩ := List.mem_map.mp hc
    rfl

/-- The client of a service with its schemas in another order is the client of the service with
resources renumbered. -/
theorem Assembly.exists_renumbers (a : Assembly) (service : Service) {schemas : List Schema}
    (hp : schemas.Perm service.schemas)
    (hn : (service.schemas.map (resourceName ·.name)).Nodup) :
    ∃ ρ, Client.Renumbers ρ (a.client service).value (a.client { service with schemas }).value ∧
      ∀ name, (a.client { service with schemas }).value.resourceNamed? name =
        ((a.client service).value.resourceNamed? name).map ρ := by
  let start := a.unclassified service
  let start' := a.unclassified { service with schemas }
  have hnames : (service.schemas.map (·.name)).Nodup := by
    apply List.Nodup.of_map resourceName
    rwa [List.map_map]
  obtain ⟨hperm, -, hcollections⟩ := a.unclassified_of_perm service hp.symm hnames
  obtain ⟨hname, hwrapped⟩ := a.nodup_names_unclassified service hn
  obtain ⟨ρ, hρ⟩ := exists_renumbering hperm
  have hnamed (name : String) :
      start'.resourceNamed? name = (start.resourceNamed? name).map ρ :=
    findIdx?_renumbered hperm hρ hname name
  have hmirror : Client.Mirrors ρ start start'.gist := mirrors_unclassified hp.symm hnames hρ
  have hclient : Client.Mirrors ρ (a.client service).value
      (a.client { service with schemas }).value.gist := by
    rw [← a.client_gist]
    apply mirrors_client
    · rwa [a.unclassified_gist]
    · intro name
      rw [a.unclassified_gist, Client.resourceNamed?_gist]
      exact hnamed name
    · intro schema
      rw [a.unclassified_gist, Client.wrapperOf?_resourcePositions_gist,
        Client.wrapperOf?_resourcePositions, Client.wrapperOf?_resourcePositions]
      exact findIdx?_renumbered hperm hρ hwrapped schema
  refine ⟨ρ, hclient.renumbers ?_ ?_, fun name => ?_⟩
  · intro i
    rw [a.outline_client, a.outline_client]
    exact hρ i
  · rw [a.outline_client, a.outline_client]
    exact hcollections
  · rw [← Client.resourceNamed?_outline, a.outline_client, ← Client.resourceNamed?_outline
      (a.client service).value, a.outline_client]
    exact hnamed name

/-- The order of schemas decides nothing: if their resource names differ, all orders lead to clients
that agree up to the numbers of resources. -/
theorem Assembly.client_of_perm (a : Assembly) (service : Service) {schemas : List Schema}
    (hp : schemas.Perm service.schemas)
    (hn : (service.schemas.map (resourceName ·.name)).Nodup) :
    (a.client service).value.SameByName (a.client { service with schemas }).value := by
  obtain ⟨ρ, hρ, hnamed⟩ := a.exists_renumbers service hp hn
  exact hρ.sameByName hnamed

namespace Workshop

def turned : Service :=
  { service with schemas := service.schemas.reverse }

end Workshop

theorem turned_workshop_same :
    let a := Assembly.fresh .standard
    Workshop.turned.schemas.Perm Workshop.service.schemas ∧
      (Workshop.service.schemas.map (resourceName ·.name)).Nodup ∧
      (a.unclassified Workshop.service).resources.map (·.name) = ["Tool", "Part"] ∧
      (a.unclassified Workshop.turned).resources.map (·.name) = ["Part", "Tool"] ∧
      (a.client Workshop.service).value.SameByName (a.client Workshop.turned).value :=
  have hp := Workshop.service.schemas.reverse_perm
  have hn : (Workshop.service.schemas.map (resourceName ·.name)).Nodup := by decide
  ⟨hp, hn, by decide +kernel, by decide +kernel,
    Assembly.client_of_perm (.fresh .standard) Workshop.service hp hn⟩

end Lifecycle
