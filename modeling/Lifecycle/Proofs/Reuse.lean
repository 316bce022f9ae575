import Lifecycle.Proofs.Sequence

/-!
# One assembly for several services

An assembly keeps the names of all schemas that it has met. If a later service has a schema of such
a name, it becomes a resource there even though no operation of that service returns it. The clients
of several services that one assembly makes are those of separate assemblies exactly if this happens
to none of them.
-/
namespace Lifecycle

/-- No schema of the later service becomes a resource on account of the earlier one alone. -/
def Service.Untouched (earlier later : Service) : Prop :=
  ∀ schema ∈ later.schemas,
    schema.name ∈ earlier.returnedSchemas → schema.name ∈ later.returnedSchemas

namespace Assembly

/-- The clients of some services, all made by one assembly in this order. -/
def clients (a : Assembly) : List Service → List Client
  | [] => []
  | service :: rest => (a.client service).value :: (a.meetSchemas service).clients rest

/-- The clients of some services, each made by an assembly of its own. -/
def separateClients (settings : Settings) (services : List Service) : List Client :=
  services.map fun service => (service.client settings).value

/-! ### What an assembly remembers -/

theorem mem_foldl_meet {names more : List String} {name : String} :
    name ∈ more.foldl meet names ↔ name ∈ names ∨ name ∈ more := by
  induction more generalizing names with
  | nil => simp
  | cons next rest ih =>
    have hm : name ∈ meet names next ↔ name ∈ names ∨ name = next := by
      unfold meet
      split
      · rename_i h
        have hn : next ∈ names := List.contains_iff_mem.mp h
        constructor
        · exact .inl
        · rintro (h | rfl)
          · exact h
          · exact hn
      · simp
    rw [List.foldl_cons, ih, hm, List.mem_cons, or_assoc]

theorem mem_wrapped_meetSchemas {a : Assembly} {service : Service} {name : String} :
    name ∈ (a.meetSchemas service).wrapped ↔ name ∈ a.wrapped ∨ name ∈ service.returnedSchemas :=
  mem_foldl_meet

/-! ### One service -/

/-- Unclassified clients differ as soon as some schema becomes a resource in one of them only. -/
theorem unclassified_eq_iff {a b : Assembly} {service : Service} :
    a.unclassified service = b.unclassified service ↔
      ∀ schema ∈ service.schemas, schema.name ∈ (a.meetSchemas service).wrapped ↔
        schema.name ∈ (b.meetSchemas service).wrapped := by
  have hschemas (k : Assembly) : (k.unclassified service).resources.map (·.schema) =
      service.schemas.filter fun s => (k.meetSchemas service).wrapped.contains s.name := by
    change List.map _ (List.map _ _) = _
    rw [List.map_map]
    exact List.map_id _
  constructor
  · intro h schema hs
    have hf := congrArg (fun k : Client => schema ∈ k.resources.map (·.schema)) h
    rw [hschemas, hschemas, List.mem_filter, List.mem_filter, and_iff_right hs, and_iff_right hs,
      List.contains_iff_mem, List.contains_iff_mem] at hf
    exact iff_of_eq hf
  · intro h
    have hf : (service.schemas.filter fun s => (a.meetSchemas service).wrapped.contains s.name) =
        service.schemas.filter fun s => (b.meetSchemas service).wrapped.contains s.name := by
      apply List.filter_congr
      intro schema hs
      rw [Bool.eq_iff_iff, List.contains_iff_mem, List.contains_iff_mem]
      exact h schema hs
    unfold unclassified
    dsimp only
    rw [hf]

/-- Two assemblies differ in a client only if they do before the classification. -/
theorem client_eq_iff {a b : Assembly} (h : a.settings = b.settings) {service : Service} :
    (a.client service).value = (b.client service).value ↔
      a.unclassified service = b.unclassified service := by
  constructor
  · intro he
    rw [← a.outline_client, he, b.outline_client]
  · intro he
    unfold client
    rw [he, h]

/-- What an assembly remembers shows in a service that has a schema of a remembered name, unless its
own operations return it. -/
theorem client_eq_separate_iff (a : Assembly) (service : Service) :
    (a.client service).value = (service.client a.settings).value ↔
      ∀ schema ∈ service.schemas,
        schema.name ∈ a.wrapped → schema.name ∈ service.returnedSchemas := by
  have hs : a.settings = (fresh a.settings).settings := rfl
  have hn (name : String) : name ∉ (fresh a.settings).wrapped := List.not_mem_nil
  unfold Service.client
  rw [client_eq_iff hs, unclassified_eq_iff]
  apply forall₂_congr
  intro schema _
  rw [mem_wrapped_meetSchemas, mem_wrapped_meetSchemas, or_iff_right (hn schema.name),
    or_iff_right_iff_imp]

/-! ### Several services -/

/-- By induction on the services, with the names met so far generalized. -/
theorem clients_eq_iff (a : Assembly) (services : List Service) :
    a.clients services = separateClients a.settings services ↔
      (∀ service ∈ services, ∀ schema ∈ service.schemas,
        schema.name ∈ a.wrapped → schema.name ∈ service.returnedSchemas) ∧
      services.Pairwise Service.Untouched := by
  -- what later services meet is what was remembered at first, and what each service adds to it
  induction services generalizing a with
  | nil => simp [clients, separateClients]
  | cons service rest ih =>
    have hrest := ih (a.meetSchemas service)
    have hadd : (∀ later ∈ rest, ∀ schema ∈ later.schemas,
          schema.name ∈ (a.meetSchemas service).wrapped → schema.name ∈ later.returnedSchemas) ↔
        (∀ later ∈ rest, ∀ schema ∈ later.schemas,
          schema.name ∈ a.wrapped → schema.name ∈ later.returnedSchemas) ∧
        ∀ later ∈ rest, service.Untouched later := by
      simp only [mem_wrapped_meetSchemas, or_imp, forall_and, Service.Untouched]
    rw [hadd] at hrest
    have hstep := a.client_eq_separate_iff service
    change _ :: _ = _ :: separateClients (a.meetSchemas service).settings rest ↔ _
    rw [List.cons.injEq, hstep, hrest, List.forall_mem_cons, List.pairwise_cons]
    tauto

/-- One assembly makes the same clients as separate assemblies exactly if no service has a schema
that only an earlier one returns. A service shows in nothing that may come after it exactly if the
assembly remembers nothing of it. -/
theorem clients_eq_separate_iff (settings : Settings) :
    (∀ services : List Service,
      (fresh settings).clients services = separateClients settings services ↔
        services.Pairwise Service.Untouched) ∧
    ∀ service : Service,
      (∀ later : Service, (fresh settings).clients [service, later] =
        separateClients settings [service, later]) ↔
        ((fresh settings).meetSchemas service).wrapped = [] := by
  have hall (services : List Service) :
      (fresh settings).clients services = separateClients settings services ↔
        services.Pairwise Service.Untouched := by
    have h := (fresh settings).clients_eq_iff services
    have hn : ∀ service ∈ services, ∀ schema ∈ service.schemas,
        schema.name ∈ (fresh settings).wrapped → schema.name ∈ service.returnedSchemas :=
      fun _ _ _ _ hw => absurd hw List.not_mem_nil
    rwa [and_iff_right hn] at h
  refine ⟨hall, fun service => ?_⟩
  have hw (name : String) : name ∈ ((fresh settings).meetSchemas service).wrapped ↔
      name ∈ service.returnedSchemas := by
    rw [mem_wrapped_meetSchemas]
    exact or_iff_right List.not_mem_nil
  simp only [hall, List.pairwise_pair, List.eq_nil_iff_forall_not_mem, hw]
  constructor
  · intro h name hr
    -- a later service that has the schema and no operation
    let later : Service := ⟨"", [⟨name, none, [], []⟩], []⟩
    have hl := h later ⟨name, none, [], []⟩ List.mem_cons_self hr
    exact List.not_mem_nil hl
  · intro h later schema _ hr
    exact absurd hr (h schema.name)

end Assembly

namespace Workshop

/-- Describes tools, and offers nothing. -/
def catalogue : Service where
  name := "Catalogue"
  schemas := [identified "ToolInner"]
  groups := []

end Workshop

/-- After the workshop, the tools of the catalogue are taken for resources. -/
theorem catalogue_after_workshop :
    let reused := (Assembly.fresh .standard).meetSchemas Workshop.service
    (reused.client Workshop.catalogue).value.resources.map (·.name) = ["Tool"] ∧
      (Workshop.catalogue.client .standard).value.resources.map (·.name) = [] ∧
      (Assembly.fresh .standard).clients [Workshop.service, Workshop.catalogue] ≠
        Assembly.separateClients .standard [Workshop.service, Workshop.catalogue] := by
  intro reused
  have hreused : (reused.client Workshop.catalogue).value.resources.map (·.name) = ["Tool"] := by
    decide +kernel
  have hfresh : (Workshop.catalogue.client .standard).value.resources.map (·.name) = [] := by
    decide +kernel
  refine ⟨hreused, hfresh, ?_⟩
  intro h
  have hlater := congrArg (fun clients : List Client =>
    clients[1]?.map fun client => client.resources.map (·.name)) h
  change some ((reused.client Workshop.catalogue).value.resources.map (·.name)) =
    some ((Workshop.catalogue.client .standard).value.resources.map (·.name)) at hlater
  rw [hreused, hfresh] at hlater
  cases hlater

end Lifecycle
