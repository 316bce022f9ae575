import Lifecycle.Proofs.DefinitionChain

/-!
# Where the parameters of a create are taken

What callers supply to a create is taken piece by piece: one parameter may name the resource where
its definition starts, the others of the path go into the stage of the parent, and those of headers
and the query have stages of their own. In a subscription there is no stage of the parent, so
there the parameters of the path other than the name are taken nowhere.
-/
namespace Lifecycle

/-- The parameters that a stage takes. -/
def StageKind.taken : StageKind → List Parameter
  | .parent _ parameters => parameters
  | .parameter p => [p]
  | _ => []

namespace Client

/-- The parameter that names a resource where its definition starts. -/
def naming? (client : Client) (r : Resource) : Option Parameter :=
  (client.defineMethod r).value.bind (·.parameter)

/-- The parameters taken on the way through a definition. -/
def takenParameters (client : Client) (r : Resource) : List Parameter :=
  (client.naming? r).toList ++ (client.definitionStages r).value.flatMap (·.kind.taken)

variable {client : Client} {r : Resource} {create : Binding} {m : Method}

/-! ### The name and the parent -/

theorem value_defineMethod (hc : r.create = some create) :
    (client.defineMethod r).value = some ⟨defineName r create,
      if (client.hasFixedName create).value then none else client.chosenName? create⟩ := by
  unfold defineMethod
  rw [hc]
  simp only [Logged.value_bind]
  cases (client.hasFixedName create).value <;> rfl

theorem exists_name_of_not_fixed (h : (client.hasFixedName create).value = false) :
    ∃ name, nameParameter? create = some name := by
  unfold hasFixedName at h
  cases hn : nameParameter? create with
  | none =>
    rw [hn] at h
    cases h
  | some name => exact ⟨name, rfl⟩

theorem pathParameters_eq (hm : client.fullMethod? create = some m) :
    client.pathParameters create = m.parametersAt .path := by
  rw [pathParameters, hm]

/-- A parameter names the resource, and the others of the path address the parent. -/
theorem perm_naming_parent (hc : r.create = some create) (hm : client.fullMethod? create = some m)
    (hn : (m.parameters.map (·.serializedName)).Nodup) :
    ((client.naming? r).toList ++ (client.parentParameters create).value).Perm
      (m.parametersAt .path) := by
  have hpath : ((m.parametersAt .path).map (·.serializedName)).Nodup :=
    hn.sublist (List.filter_sublist.map _)
  unfold naming? parentParameters
  rw [value_defineMethod hc, pathParameters_eq hm, Option.bind_some, Logged.value_bind,
    Logged.value_pure]
  cases hf : (client.hasFixedName create).value with
  | true =>
    simp only [Bool.true_or, List.filter_true, if_true, Option.toList_none, List.nil_append]
    exact .refl _
  | false =>
    obtain ⟨name, hname⟩ := exists_name_of_not_fixed hf
    have hothers : (m.parametersAt .path).filter
          (fun p => false || nameParameter? create != some p.serializedName) =
        (m.parametersAt .path).filter fun p => !(p.serializedName == name) := by
      apply List.filter_congr
      intro p _
      rw [hname, Bool.false_or, Bool.eq_iff_iff, bne_iff_ne, Bool.not_eq_true',
        beq_eq_false_iff_ne, Ne, Option.some.injEq]
      exact ne_comm
    rw [hothers, chosenName?, hname, pathParameters_eq hm]
    change ((m.parametersAt .path).find? _).toList ++ _ |>.Perm _
    rw [← filter_key_eq_find? hpath]
    exact List.filter_append_perm _ _

/-- Only a parameter of the path can name the resource. -/
theorem in_path_of_naming? (hc : r.create = some create) (hm : client.fullMethod? create = some m)
    (hn : (m.parameters.map (·.serializedName)).Nodup) {p : Parameter}
    (h : client.naming? r = some p) : p ∈ m.parameters ∧ p.location = .path := by
  have hmem : p ∈ m.parametersAt .path :=
    (perm_naming_parent hc hm hn).mem_iff.mp (List.mem_append_left _ (Option.mem_toList.mpr h))
  obtain ⟨hp, hl⟩ := List.mem_filter.mp hmem
  exact ⟨hp, eq_of_beq hl⟩

/-! ### All stages -/

theorem flatMap_taken_properties (properties : List Property) (all : List Property)
    (mandatory : Bool) :
    (properties.map (Stage.ofProperty all mandatory)).flatMap (·.kind.taken) = [] := by
  rw [List.flatMap_map, List.flatMap_eq_nil_iff]
  exact fun _ _ => rfl

theorem flatMap_taken_parameters (others : List Stage) (parameters : List Parameter) :
    (Stage.parameterStages others parameters).flatMap (·.kind.taken) = parameters := by
  have h := congrArg (List.flatMap StageKind.taken) (Stage.kind_parameterStages others parameters)
  rw [List.flatMap_map, List.flatMap_map] at h
  exact h.trans (List.flatMap_singleton' parameters)

theorem flatMap_taken_parent (client : Client) (r : Resource) (create : Binding)
    (properties : List Property) (side : List Parameter) :
    (client.parentStage r create properties side).toList.flatMap (·.kind.taken) =
      if r.category.parentStage?.isSome then (client.parentParameters create).value else [] := by
  unfold parentStage
  cases r.category.parentStage? with
  | none => rfl
  | some base => exact List.append_nil _

/-- Parameters are taken by `define`, by the stage of the parent and by stages of their own. -/
theorem takenParameters_eq (hc : r.create = some create) :
    client.takenParameters r = (client.naming? r).toList ++
      ((if r.category.parentStage?.isSome then (client.parentParameters create).value else []) ++
        client.sideParameters create) := by
  have hblank : [Stage.blank].flatMap (·.kind.taken) = [] := rfl
  have hcreate : [Stage.create].flatMap (·.kind.taken) = [] := rfl
  unfold takenParameters
  rw [value_definitionStages hc, stagesBeforeSide]
  simp only [List.flatMap_append, flatMap_taken_properties, flatMap_taken_parameters,
    flatMap_taken_parent, hblank, hcreate, List.append_nil, List.nil_append]

/-! ### How often a parameter is taken -/

/-- Each parameter of a create that is not in the body is taken once, the resource being in a
subscription and the parameter in its path apart. -/
theorem count_takenParameters (hk : r.category ≠ .immutable) (hc : r.create = some create)
    (hm : client.fullMethod? create = some m)
    (hn : (m.parameters.map (·.serializedName)).Nodup) (p : Parameter) :
    (client.takenParameters r).count p =
      if p ∈ m.parameters ∧ p.location ≠ .body ∧
        (r.category = .subscriptionAsParent ∧ p.location = .path → client.naming? r = some p)
      then 1 else 0 := by
  have hnodup : m.parameters.Nodup := hn.of_map _
  have hperm := perm_naming_parent hc hm hn
  have hpath : (m.parametersAt .path).count p =
      if p ∈ m.parameters ∧ (p.location == .path) = true then 1 else 0 :=
    count_filter_of_nodup hnodup _ p
  have hside : (client.sideParameters create).count p =
      if p ∈ m.parameters ∧ (p.location == .header || p.location == .query) = true
      then 1 else 0 := by
    rw [sideParameters_eq, hm, Option.elim_some]
    exact count_filter_of_nodup hnodup _ p
  rw [takenParameters_eq hc]
  by_cases hs : r.category = .subscriptionAsParent
  · have hnone : ¬ r.category.parentStage?.isSome = true :=
      fun h => (Category.isSome_parentStage?_iff hk).mp h hs
    have hnaming : (client.naming? r).toList.count p =
        if client.naming? r = some p then 1 else 0 := by
      cases client.naming? r with
      | none => rfl
      | some q => simp [List.count_singleton]
    rw [if_neg hnone, List.nil_append, List.count_append, hnaming, hside]
    by_cases hp : p ∈ m.parameters ∧ p.location = .path
    · simp [hp, hs]
    · rw [if_neg fun h => hp (in_path_of_naming? hc hm hn h)]
      by_cases hmem : p ∈ m.parameters
      · have hl : p.location ≠ .path := fun h => hp ⟨hmem, h⟩
        cases h : p.location <;> simp_all
      · simp [hmem]
  · rw [if_pos ((Category.isSome_parentStage?_iff hk).mpr hs), ← List.append_assoc,
      List.count_append, hperm.count_eq, hpath, hside]
    by_cases hp : p ∈ m.parameters
    · cases hl : p.location <;> simp [hp, hs]
    · simp [hp]

end Client

/-- What callers supply to the create of a resource of a service, the body apart, is taken once in
its definition. Only in a subscription the parameters of the path that do not name the resource are
taken nowhere. -/
theorem Assembly.count_taken_of_create (a : Assembly) (service : Service) {i : Nat} {r : Resource}
    {create : Binding} {m : Method} (hr : (a.client service).value.resources[i]? = some r)
    (hc : r.create = some create) (hm : (a.client service).value.fullMethod? create = some m)
    (hn : (m.parameters.map (·.serializedName)).Nodup) :
    let client := (a.client service).value
    ∃ define, (client.defineMethod r).value = some define ∧ ∀ p,
      (define.parameter.toList ++
          (client.definitionStages r).value.flatMap (·.kind.taken)).count p =
        if p ∈ m.parameters ∧ p.location ≠ .body ∧
          (r.category = .subscriptionAsParent ∧ p.location = .path → define.parameter = some p)
        then 1 else 0 := by
  intro client
  have hk := a.category_of_create service hr hc
  have hd := client.value_defineMethod hc
  refine ⟨_, hd, ?_⟩
  intro p
  have hcount := Client.count_takenParameters hk hc hm hn p
  rw [Client.takenParameters, Client.naming?, hd, Option.bind_some] at hcount
  exact hcount

theorem count_taken_in_workshop :
    let client := ((Assembly.fresh .standard).client Workshop.furnished).value
    let create : Binding := ⟨0, 0, ⟨Workshop.toolUrl⟩, "createOrUpdate", some "ToolInner", [0, 1]⟩
    ∃ r m, client.resources[0]? = some r ∧ r.create = some create ∧
      client.fullMethod? create = some m ∧
      m.parameters.map (·.serializedName) = ["g", "t", "body", "reason"] ∧
      (m.parameters.map (·.serializedName)).Nodup ∧
      ∃ define, (client.defineMethod r).value = some define ∧ ∀ p,
        (define.parameter.toList ++
            (client.definitionStages r).value.flatMap (·.kind.taken)).count p =
          if p ∈ m.parameters ∧ p.location ≠ .body ∧
            (r.category = .subscriptionAsParent ∧ p.location = .path → define.parameter = some p)
          then 1 else 0 := by
  intro client create
  have hbound : client.resources[0]?.map (·.create) = some (some create) := by decide +kernel
  have hnames : (client.fullMethod? create).map (fun m => m.parameters.map (·.serializedName)) =
      some ["g", "t", "body", "reason"] := by decide +kernel
  obtain ⟨r, hr, hc⟩ := Option.map_eq_some_iff.mp hbound
  obtain ⟨m, hm, hp⟩ := Option.map_eq_some_iff.mp hnames
  have hn : (m.parameters.map (·.serializedName)).Nodup := by
    rw [hp]
    decide
  exact ⟨r, m, hr, hc, hm, hp, hn,
    Assembly.count_taken_of_create (.fresh .standard) Workshop.furnished hr hc hm hn⟩

namespace Workshop

/-- Parts lie in a subscription that callers choose. -/
def branches : Service where
  name := "Workshop"
  schemas := [identified "PartInner"]
  groups :=
    [⟨"Parts",
      [operation "create" .put partUrl
        [⟨"subscription", "s", .path, .string, true, false, false⟩,
          ⟨"part", "p", .path, .string, true, false, false⟩, body "PartInner"] "PartInner"]⟩]

end Workshop

/-- The subscription of a part is supplied to the create and taken nowhere in the definition. -/
theorem subscription_not_taken :
    let client := ((Assembly.fresh .standard).client Workshop.branches).value
    let create : Binding := ⟨0, 0, ⟨Workshop.partUrl⟩, "create", some "PartInner", [0, 1]⟩
    let subscription : Parameter := ⟨"subscription", "s", .path, .string, true, false, false⟩
    ∃ r m, client.resources[0]? = some r ∧ r.create = some create ∧
      client.fullMethod? create = some m ∧
      (m.parameters.map (·.serializedName)).Nodup ∧ subscription ∈ m.parameters ∧
      ∃ define, (client.defineMethod r).value = some define ∧
        subscription ∉ define.parameter.toList ∧
        subscription ∉ (client.definitionStages r).value.flatMap (·.kind.taken) := by
  intro client create subscription
  have hbound : client.resources[0]?.map (fun r => (r.create, (client.defineMethod r).value,
        (client.definitionStages r).value.flatMap (·.kind.taken))) =
      some (some create, some ⟨"define", some ⟨"part", "p", .path, .string, true, false, false⟩⟩,
        []) := by decide +kernel
  have hparameters : (client.fullMethod? create).map (·.parameters) =
      some [subscription, ⟨"part", "p", .path, .string, true, false, false⟩,
        Workshop.body "PartInner"] := by decide +kernel
  obtain ⟨r, hr, he⟩ := Option.map_eq_some_iff.mp hbound
  obtain ⟨m, hm, hp⟩ := Option.map_eq_some_iff.mp hparameters
  obtain ⟨hc, he⟩ := Prod.mk.inj he
  obtain ⟨hd, htaken⟩ := Prod.mk.inj he
  refine ⟨r, m, hr, hc, hm, ?_, ?_, _, hd, ?_, ?_⟩
  · rw [hp]
    decide
  · rw [hp]
    exact List.mem_cons_self
  · decide
  · rw [htaken]
    exact List.not_mem_nil

end Lifecycle
