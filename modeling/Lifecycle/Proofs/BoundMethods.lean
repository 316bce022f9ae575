import Lifecycle.ExtraMethods
import Lifecycle.Proofs.Overloads
import Lifecycle.Proofs.UrlWords

/-!
# Which bound operations can be called

A phase is bound to a method by its verb and URL, but what is bound refers to methods by name. The
two agree, so that the operation can be called with all its parameters, except for a name that by
itself ends like that of a method with the whole response, and for a create that sends no model.
-/
namespace Lifecycle

/-- Whether the name of a method ends in the ending of full responses only if the method gives
one. -/
def Method.NamedByKind (m : Method) : Prop :=
  m.kind = .simpleResponse ∨ ¬ responseEnding.toList <:+ m.name.toList

namespace Client

/-- The method at a position of the collection may be the one that a phase was bound to. -/
structure StandsFor (client : Client) (phase : Phase) (b : Binding) (p : Nat) (m : Method) :
    Prop where
  place : (client.methods b.collection)[p]? = some m
  name : m.name = b.method
  url : m.url = b.url
  verb : m.verb ∈ phase.verbs
  /-- updates are only bound to methods that send a model -/
  sends : phase = .update → m.sendsModel = true

/-- What is bound refers to the method at a position, and to one that takes all parameters. -/
structure Callable (client : Client) (b : Binding) (p : Nat) : Prop where
  nonempty : b.references ≠ []
  refers : p ∈ b.references
  full : (client.fullMethod? b).isSome = true

/-! ### References of a method to itself -/

/-- The name of a method leads back to the method, as long as it is named by its kind. -/
theorem refersTo_self_iff {m : Method} :
    refersTo m.name m = true ↔
      m.NamedByKind ∧ (m.verb = .get ∨ m.verb = .delete ∨ m.sendsModel = true) := by
  rw [refersTo_iff, Method.NamedByKind]
  apply and_congr_left
  intro _
  by_cases h : responseEnding.toList <:+ m.name.toList
  · obtain ⟨start, hs⟩ := h
    have hname : m.name = String.ofList start ++ responseEnding := by
      rw [← String.toList_inj, String.toList_append, String.toList_ofList, hs]
    have hplain : plainName m.name = String.ofList start := by rw [hname, plainName_append]
    have hne : m.name ≠ String.ofList start := by
      intro he
      exact ne_append_responseEnding (String.ofList start) (he.symm.trans hname)
    have hending : responseEnding.toList <:+ m.name.toList := ⟨start, hs⟩
    simp [hplain, hne, ← hname, hending]
  · simp [plainName_of_plain h, h]

/-! ### Methods that take all parameters -/

/-- Behind each method that is referred to stands one that takes all parameters. -/
theorem isSome_fullMethod? {client : Client} {b : Binding} {operations : List Operation}
    (hm : client.methods b.collection = operations.flatMap Operation.collectionMethods)
    (hr : b.references = referencesTo (client.methods b.collection) b.method) {p : Nat}
    (hp : p ∈ b.references) : (client.fullMethod? b).isSome = true := by
  rw [hr, mem_referencesTo] at hp
  obtain ⟨m, hat, hrefers⟩ := hp
  have hmem : m ∈ operations.flatMap Operation.collectionMethods := by
    rw [← hm]
    exact List.mem_of_getElem? hat
  obtain ⟨op, hop, hmop⟩ := List.mem_flatMap.mp hmem
  have hfull : refersTo b.method op.fullMethod = true := by
    rcases op.mem_collectionMethods.mp hmop with rfl | rfl
    · exact refersTo_fullMethod hrefers
    · exact hrefers
  -- the full method of the operation stands beside the one that is referred to
  have hin : op.fullMethod ∈ client.methods b.collection := by
    rw [hm, List.mem_flatMap]
    exact ⟨op, hop, op.mem_collectionMethods.mpr (.inr rfl)⟩
  obtain ⟨q, hq⟩ := List.mem_iff_getElem?.mp hin
  have hqr : q ∈ b.references := by
    rw [hr, mem_referencesTo]
    exact ⟨op.fullMethod, hq, hfull⟩
  have href : op.fullMethod ∈ client.references b := List.mem_filterMap.mpr ⟨q, hqr, hq⟩
  rw [fullMethod?, List.find?_isSome]
  exact ⟨op.fullMethod, href, by rw [Operation.requiredOnly_fullMethod]; rfl⟩

/-! ### What stands for a binding -/

/-- Whether a bound method is found again depends on its own name and kind, and on a model in its
body where it creates. -/
theorem callable_of_standsFor_iff {client : Client} {phase : Phase} {b : Binding} {p : Nat}
    {m : Method} {operations : List Operation}
    (hm : client.methods b.collection = operations.flatMap Operation.collectionMethods)
    (hr : b.references = referencesTo (client.methods b.collection) b.method)
    (h : client.StandsFor phase b p m) :
    client.Callable b p ↔ m.NamedByKind ∧ (phase = .create → m.sendsModel = true) := by
  have hp : p ∈ b.references ↔ refersTo m.name m = true := by
    rw [hr, mem_referencesTo, h.place, ← h.name]
    simp
  have hc : client.Callable b p ↔ refersTo m.name m = true := by
    rw [← hp]
    constructor
    · exact fun hc => hc.refers
    · exact fun hp => ⟨List.ne_nil_of_mem hp, hp, isSome_fullMethod? hm hr hp⟩
  have hverb := h.verb
  rw [hc, refersTo_self_iff]
  apply and_congr_right
  intro _
  cases phase with
  | create =>
    have hv : m.verb = .put := by simpa [Phase.verbs] using hverb
    simp [hv]
  | update => simp [h.sends rfl]
  | refresh =>
    have hv : m.verb = .get := by simpa [Phase.verbs] using hverb
    simp [hv]
  | delete =>
    have hv : m.verb = .delete := by simpa [Phase.verbs] using hverb
    simp [hv]

theorem standsFor_of_offer {client : Client} {collection : Nat} {candidates : List Nat}
    {categories : List Category} {f : Creation}
    (h : f ∈ client.offers collection candidates categories) :
    ∃ p m, client.StandsFor .create (client.referred f.binding) p m := by
  obtain ⟨category, _, hf⟩ := List.mem_flatMap.mp h
  obtain ⟨m, hm, ho⟩ := List.mem_filterMap.mp hf
  obtain ⟨i, ht, body, _, rfl⟩ := offer?_eq_some_iff.mp ho
  have hputs := (target?_eq_some_iff.mp ht).1
  have hv : m.verb = .put := by
    simp only [putsResource, Bool.and_eq_true, beq_iff_eq] at hputs
    exact hputs.1.1
  obtain ⟨p, hp⟩ := List.mem_iff_getElem?.mp hm
  exact ⟨p, m, hp, rfl, rfl, by simp [hv, Phase.verbs], fun hu => nomatch hu⟩

theorem standsFor_of_followed {client : Client} {phase : Phase} {f : Creation} {b : Binding}
    (h : client.followed phase f = some b) : ∃ p m, client.StandsFor phase b p m := by
  obtain ⟨r, _, hf⟩ := Option.bind_eq_some_iff.mp h
  obtain ⟨m, body, hc, rfl⟩ := bindingTo_of_follow hf
  obtain ⟨verb, hverb, hfind⟩ := List.exists_of_findSome?_eq_some hc
  have hcarries := List.find?_some hfind
  obtain ⟨p, hp⟩ := List.mem_iff_getElem?.mp (List.mem_of_find?_eq_some hfind)
  simp only [carries, Bool.and_eq_true, beq_iff_eq] at hcarries
  obtain ⟨⟨⟨⟨hv, _⟩, _⟩, hu⟩, hneeds⟩ := hcarries
  refine ⟨p, m, hp, rfl, hu, hv ▸ hverb, ?_⟩
  rintro rfl
  have hb : ¬ (verb == .get || verb == .delete) = true := by
    have hcases : verb = .patch ∨ verb = .put := by simpa [Phase.verbs] using hverb
    rcases hcases with rfl | rfl
    · decide
    · decide
  rwa [if_neg hb] at hneeds

theorem standsFor_of_boundBy {client : Client} {collection : Nat} {candidates : List Nat}
    {categories : List Category} {f : Creation}
    (hf : f ∈ client.offers collection candidates categories) {phase : Phase} {b : Binding}
    (hb : client.boundBy f phase = some b) : ∃ p m, client.StandsFor phase b p m := by
  by_cases hp : phase = .create
  · subst hp
    cases hb
    exact standsFor_of_offer hf
  · rw [boundBy_of_ne hp] at hb
    exact standsFor_of_followed hb

end Client

/-- In the client of a service, what is bound to a resource comes from a method of its collection.
It can be called through its references exactly if that method is named by its kind and, in a
create, sends a model. -/
theorem Assembly.callable_iff (a : Assembly) (service : Service) {phase : Phase} {i : Nat}
    {b : Binding} (hb : (a.client service).value.bindingAt? phase i = some b) :
    let client := (a.client service).value
    (∃ p m, client.StandsFor phase b p m) ∧
      ∀ p m, client.StandsFor phase b p m →
        (client.Callable b p ↔ m.NamedByKind ∧ (phase = .create → m.sendsModel = true)) := by
  intro client
  obtain ⟨f, trial, _, hf, hbound⟩ := a.offered_of_bindingAt? service hb
  constructor
  · obtain ⟨p, m, h⟩ := Client.standsFor_of_boundBy hf hbound
    have hplace : (client.methods b.collection)[p]? = some m := by
      rw [a.methods_client]
      exact h.place
    exact ⟨p, m, hplace, h.name, h.url, h.verb, h.sends⟩
  · have hwithin := (a.consistent_client service).within phase i b hb
    have hc := List.getElem?_eq_getElem hwithin
    obtain ⟨group, _, _, hgroup⟩ := a.group_of_collection service hc
    have hm : client.methods b.collection =
        group.operations.flatMap Operation.collectionMethods := by
      unfold Client.methods
      rw [hc]
      exact hgroup
    intro p m h
    exact Client.callable_of_standsFor_iff hm (a.refersByName_client service phase i b hb) h

theorem callable_in_workshop :
    let client := ((Assembly.fresh .standard).client Workshop.service).value
    let create : Binding :=
      ⟨0, 0, ⟨Workshop.toolUrl⟩, "createOrUpdate", some "ToolInner", [4, 5]⟩
    client.bindingAt? .create 0 = some create ∧
      (∃ p m, client.StandsFor .create create p m) ∧
      ∀ p m, client.StandsFor .create create p m →
        (client.Callable create p ↔
          m.NamedByKind ∧ (Phase.create = .create → m.sendsModel = true)) := by
  intro client create
  have hb : client.bindingAt? .create 0 = some create := by decide +kernel
  exact ⟨hb, Assembly.callable_iff (.fresh .standard) Workshop.service hb⟩

namespace Workshop

/-- Tools are created by an operation whose name ends like that of a full response, and parts by one
that sends a map, for which a schema happens to be named. -/
def misnamed : Service where
  name := "Workshop"
  schemas := [identified "ToolInner", identified "PartInner", identified "Map<String, PartInner>"]
  groups :=
    [⟨"Tools", [operation "createWithResponse" .put toolUrl [body "ToolInner"] "ToolInner"]⟩,
      ⟨"Parts",
        [operation "create" .put partUrl
          [⟨"body", "body", .body, .map (.model "PartInner"), true, false, false⟩] "PartInner"]⟩]

end Workshop

/-- Neither create refers to any method. -/
theorem uncallable_in_workshop :
    let client := ((Assembly.fresh .standard).client Workshop.misnamed).value
    let tool : Binding :=
      ⟨0, 0, ⟨Workshop.toolUrl⟩, "createWithResponse", some "ToolInner", []⟩
    let part : Binding :=
      ⟨1, 1, ⟨Workshop.partUrl⟩, "create", some "Map<String, PartInner>", []⟩
    client.bindingAt? .create 0 = some tool ∧ client.bindingAt? .create 1 = some part ∧
      (client.methods 0).map (·.name) = ["createWithResponseWithResponse", "createWithResponse"] ∧
      (client.methods 1).map (·.name) = ["createWithResponse", "create"] ∧
      ∀ p, ¬ client.Callable tool p ∧ ¬ client.Callable part p := by
  intro client tool part
  have hfound : client.bindingAt? .create 0 = some tool ∧ client.bindingAt? .create 1 = some part ∧
      (client.methods 0).map (·.name) = ["createWithResponseWithResponse", "createWithResponse"] ∧
      (client.methods 1).map (·.name) = ["createWithResponse", "create"] := by decide +kernel
  obtain ⟨htool, hpart, htools, hparts⟩ := hfound
  exact ⟨htool, hpart, htools, hparts, fun p => ⟨fun h => h.nonempty rfl, fun h => h.nonempty rfl⟩⟩

end Lifecycle
