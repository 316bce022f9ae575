import Mathlib.Data.Set.Pairwise.List
import Lifecycle.ExtraMethods
import Lifecycle.Proofs.Overloads

/-!
# Extra methods of collections

The methods that address a resource by its identifier never take the name of a method that the
collection has. They are not told apart from each other: two resources that are fetched through one
collection, or deleted through it, ask for the same declarations.
-/
namespace Lifecycle

/-- What stands between the last pair of parentheses of a signature. -/
def parameterList (signature : String) : String :=
  String.ofList (signature.toList.reverse.tail.takeWhile (· != '(')).reverse

/-- The type that is given back has no part in the list of parameters. -/
theorem parameterList_append {before after : String} (h : '(' ∈ after.toList.reverse.tail) :
    parameterList (before ++ after) = parameterList after := by
  have hne : after.toList.reverse ≠ [] := by
    intro he
    rw [he] at h
    cases h
  have hcut : (after.toList.reverse.tail.takeWhile (· != '(')).length ≠
      after.toList.reverse.tail.length := by
    intro hl
    have he := (List.takeWhile_prefix (· != '(')).eq_of_length hl
    rw [List.takeWhile_eq_self_iff] at he
    have hp := he '(' h
    exact absurd hp (by decide)
  unfold parameterList
  rw [String.toList_append, List.reverse_append, List.tail_append_of_ne_nil hne,
    List.takeWhile_append, if_neg hcut]

/-- What an interface can have only once: a name with a list of parameters. -/
def ExtraMethod.declaration (e : ExtraMethod) : String × String :=
  (e.name, parameterList e.signature)

/-- No method of the collection has the name. -/
def Collection.Free (c : Collection) (name : String) : Prop :=
  ∀ m ∈ c.methods, m.name ≠ name

theorem Collection.free_iff {c : Collection} {name : String} :
    c.Free name ↔ c.methods.any (·.name == name) = false := by
  simp [Free]

namespace Client

/-- A phase of the resource at a position is bound to methods of which one gives the whole
response. -/
def Responds (client : Client) (phase : Phase) (i : Nat) : Prop :=
  ∃ b, client.bindingAt? phase i = some b ∧ ∃ m ∈ client.references b, m.kind = .simpleResponse

/-- Two resources, each with a phase bound in the collection, ask for an extra method of the same
name and parameters. -/
def Contend (client : Client) (c : Collection) (phase : Phase) (name : String) (i k : Nat) : Prop :=
  c.Free name ∨
    c.Free (name ++ responseEnding) ∧ client.Responds phase i ∧ client.Responds phase k

/-- What extra methods declare for the resource at a position. -/
def declaredFor (client : Client) (extras : Resource → List ExtraMethod) (i : Nat) :
    List (String × String) :=
  (client.resources[i]?.elim [] extras).map ExtraMethod.declaration

/-- What is declared in a collection for the resource at a position: a method of a name, and one for
the whole response. -/
structure Declares (client : Client) (c : Collection) (phase : Phase) (name : String) (i : Nat)
    (declared : List (String × String)) : Prop where
  nodup : declared.Nodup
  plain : (name, "String id") ∈ declared ↔ c.Free name
  whole : (name ++ responseEnding, "String id, Context context") ∈ declared ↔
    c.Free (name ++ responseEnding) ∧ client.Responds phase i
  /-- there may be more of the same name -/
  cases : ∀ d ∈ declared, d = (name, "String id") ∨
    d = (name ++ responseEnding, "String id, Context context") ∨ c.Free name ∧ d.1 = name

namespace Declares

variable {client : Client} {c : Collection} {phase : Phase} {name : String} {i k : Nat}
  {declared declared' : List (String × String)}

theorem free (h : client.Declares c phase name i declared) {d : String × String}
    (hd : d ∈ declared) : c.Free d.1 := by
  rcases h.cases d hd with rfl | rfl | ⟨hfree, he⟩
  · exact h.plain.mp hd
  · exact (h.whole.mp hd).1
  · rw [he]
    exact hfree

theorem name_cases (h : client.Declares c phase name i declared) {d : String × String}
    (hd : d ∈ declared) : d.1 = name ∨ d.1 = name ++ responseEnding := by
  rcases h.cases d hd with rfl | rfl | ⟨_, he⟩
  · exact .inl rfl
  · exact .inr rfl
  · exact .inl he

/-- Declarations for two resources have nothing in common exactly if the two do not contend. -/
theorem disjoint_iff (h : client.Declares c phase name i declared)
    (h' : client.Declares c phase name k declared') :
    declared.Disjoint declared' ↔ ¬ client.Contend c phase name i k := by
  rw [List.disjoint_left]
  constructor
  · rintro hd (hfree | ⟨hfree, hi, hk⟩)
    · exact hd (h.plain.mpr hfree) (h'.plain.mpr hfree)
    · exact hd (h.whole.mpr ⟨hfree, hi⟩) (h'.whole.mpr ⟨hfree, hk⟩)
  · intro hn d hd hd'
    apply hn
    rcases h.cases d hd with rfl | rfl | ⟨hfree, _⟩
    · exact .inl (h.plain.mp hd)
    · obtain ⟨hfree, hi⟩ := h.whole.mp hd
      obtain ⟨_, hk⟩ := h'.whole.mp hd'
      exact .inr ⟨hfree, hi, hk⟩
    · exact .inl hfree

/-- What is declared for several resources is distinct exactly if no two of them contend. -/
theorem nodup_flatMap_iff {positions : List Nat} (hn : positions.Nodup)
    {declared : Nat → List (String × String)}
    (h : ∀ i ∈ positions, client.Declares c phase name i (declared i)) :
    (positions.flatMap declared).Nodup ↔
      ∀ i ∈ positions, ∀ k ∈ positions, client.Contend c phase name i k → i = k := by
  have hs : Std.Symm (Function.onFun List.Disjoint declared) := ⟨fun _ _ hd _ hx hx' => hd hx' hx⟩
  rw [List.nodup_flatMap, ← hn.pairwise_coe]
  constructor
  · rintro ⟨_, hp⟩ i hi k hk hc
    by_contra hne
    exact ((h i hi).disjoint_iff (h k hk)).mp (hp hi hk hne) hc
  · intro hc
    refine ⟨fun i hi => (h i hi).nodup, ?_⟩
    intro i hi k hk hne
    exact ((h i hi).disjoint_iff (h k hk)).mpr fun hcontend => hne (hc i hi k hk hcontend)

end Declares

/-! ### What is declared for a resource -/

variable {client : Client} {c : Collection} {i : Nat} {b : Binding}

theorem responds_iff {phase : Phase} (hb : client.bindingAt? phase i = some b) :
    client.Responds phase i ↔ (client.references b).any (·.kind == .simpleResponse) = true := by
  rw [List.any_eq_true]
  constructor
  · rintro ⟨b', hb', m, hm, hk⟩
    obtain rfl : b = b' := Option.some.inj (hb.symm.trans hb')
    exact ⟨m, hm, beq_iff_eq.mpr hk⟩
  · rintro ⟨m, hm, hk⟩
    exact ⟨b, hb, m, hm, eq_of_beq hk⟩

/-- How the declarations for a resource are put together. -/
theorem declares_of_parts (phase : Phase) (name : String) {taken takenWhole responds : Bool}
    {more : List (String × String)} (hfree : c.Free name ↔ taken = false)
    (hwhole : c.Free (name ++ responseEnding) ↔ takenWhole = false)
    (hresponds : client.Responds phase i ↔ responds = true) (hn : more.Nodup)
    (hmore : ∀ d ∈ more, c.Free name ∧ d = (name, "String id, Context context")) :
    client.Declares c phase name i
      ((if taken then [] else [(name, "String id")]) ++
        (if !responds || takenWhole then []
          else [(name ++ responseEnding, "String id, Context context")]) ++ more) := by
  have hne : name ≠ name ++ responseEnding := ne_append_responseEnding name
  have hp : "String id" ≠ "String id, Context context" := by decide
  have hplain : (name, "String id") ∉ more := fun hd => hp (congrArg Prod.snd (hmore _ hd).2)
  have hrest : (name ++ responseEnding, "String id, Context context") ∉ more :=
    fun hd => hne (congrArg Prod.fst (hmore _ hd).2).symm
  constructor
  · cases taken <;> cases takenWhole <;> cases responds <;>
      simp [hn, hplain, hrest, hne]
  · rw [hfree]
    cases taken <;> cases takenWhole <;> cases responds <;> simp [hplain, hne]
  · rw [hwhole, hresponds]
    cases taken <;> cases takenWhole <;> cases responds <;> simp [hrest, hne.symm]
  · intro d hd
    rw [List.mem_append, List.mem_append] at hd
    rcases hd with (hd | hd) | hd
    · split at hd
      · cases hd
      · exact .inl (List.mem_singleton.mp hd)
    · split at hd
      · cases hd
      · exact .inr (.inl (List.mem_singleton.mp hd))
    · obtain ⟨hf, rfl⟩ := hmore d hd
      exact .inr (.inr ⟨hf, rfl⟩)

/-- What the fetch of one resource adds, each of the two methods unless its name is taken. -/
theorem declaredFor_fetch (hb : client.bindingAt? .refresh i = some b) :
    client.declaredFor (client.fetchExtras c) i =
      (if c.methods.any (·.name == "getById") then [] else [("getById", "String id")]) ++
        (if !(client.references b).any (·.kind == .simpleResponse) ||
            c.methods.any (·.name == "getByIdWithResponse") then []
          else [("getByIdWithResponse", "String id, Context context")]) := by
  obtain ⟨r, hr, hrefresh⟩ := Option.bind_eq_some_iff.mp hb
  change r.refresh = some b at hrefresh
  have hplain : parameterList (r.name ++ " getById(String id)") = "String id" := by
    rw [parameterList_append (by decide)]
    decide
  have hwhole : parameterList ("Response<" ++ r.name ++
      "> getByIdWithResponse(String id, Context context)") = "String id, Context context" := by
    rw [parameterList_append (by decide)]
    decide
  unfold declaredFor fetchExtras
  rw [hr, Option.elim_some, hrefresh]
  simp only [List.map_append, apply_ite (List.map ExtraMethod.declaration), List.map_nil,
    List.map_cons, ExtraMethod.declaration, hplain, hwhole]

theorem declares_fetch (hb : client.bindingAt? .refresh i = some b) :
    client.Declares c .refresh "getById" i
      (client.declaredFor (client.fetchExtras c) i) := by
  have hd := declares_of_parts .refresh "getById" (c := c) Collection.free_iff
    Collection.free_iff (responds_iff hb) List.nodup_nil (fun _ h => nomatch h)
  rw [List.append_nil] at hd
  rw [declaredFor_fetch hb]
  exact hd

/-- Where deletes take a context but give no whole response, the name is declared once more. -/
def deletesInContext (client : Client) (c : Collection) (b : Binding) : List (String × String) :=
  let responds := (client.references b).any (·.kind == .simpleResponse)
  let taken := c.methods.any (·.name == "deleteById")
  if (client.references b).any (·.hasContext) && !responds && !taken then
    [("deleteById", "String id, Context context")]
  else []

theorem nodup_deletesInContext : (client.deletesInContext c b).Nodup := by
  unfold deletesInContext
  dsimp only
  split
  · exact List.nodup_singleton _
  · exact List.nodup_nil

theorem free_of_mem_deletesInContext {d : String × String} (h : d ∈ client.deletesInContext c b) :
    c.Free "deleteById" ∧ d = ("deleteById", "String id, Context context") := by
  obtain ⟨hif, hmem⟩ := List.mem_ite_nil_right.mp h
  rw [Bool.and_eq_true, Bool.not_eq_true'] at hif
  exact ⟨Collection.free_iff.mpr hif.2, List.mem_singleton.mp hmem⟩

/-- What the delete of one resource adds; the overloads in context are listed last. -/
theorem declaredFor_delete (hb : client.bindingAt? .delete i = some b) :
    client.declaredFor (client.deleteExtras c) i =
      (if c.methods.any (·.name == "deleteById") then [] else [("deleteById", "String id")]) ++
        (if !(client.references b).any (·.kind == .simpleResponse) ||
            c.methods.any (·.name == "deleteByIdWithResponse") then []
          else [("deleteByIdWithResponse", "String id, Context context")]) ++
        client.deletesInContext c b := by
  obtain ⟨r, hr, hdelete⟩ := Option.bind_eq_some_iff.mp hb
  change r.delete = some b at hdelete
  have hplain : parameterList "void deleteById(String id)" = "String id" := by decide
  have hcontext : parameterList "void deleteById(String id, Context context)" =
      "String id, Context context" := by decide
  have hwhole : parameterList
      "Response<Void> deleteByIdWithResponse(String id, Context context)" =
        "String id, Context context" := by decide
  unfold declaredFor deleteExtras deletesInContext
  rw [hr, Option.elim_some, hdelete, List.append_assoc]
  simp only [List.map_append, apply_ite (List.map ExtraMethod.declaration), List.map_nil,
    List.map_cons, ExtraMethod.declaration, hplain, hwhole, hcontext]
  congr 1
  -- the two declarations with a context exclude each other
  cases (client.references b).any (·.kind == .simpleResponse) <;>
    cases c.methods.any (·.name == "deleteByIdWithResponse") <;> simp

theorem declares_delete (hb : client.bindingAt? .delete i = some b) :
    client.Declares c .delete "deleteById" i
      (client.declaredFor (client.deleteExtras c) i) := by
  rw [declaredFor_delete hb]
  exact declares_of_parts .delete "deleteById" Collection.free_iff Collection.free_iff
    (responds_iff hb) nodup_deletesInContext fun _ hd => free_of_mem_deletesInContext hd

/-! ### All that is declared in a collection -/

/-- Declarations of a collection are those for each fetch and then those for each delete. -/
theorem map_declaration_collectionExtras (client : Client) (c : Collection) :
    (client.collectionExtras c).map ExtraMethod.declaration =
      c.refreshes.flatMap (client.declaredFor (client.fetchExtras c)) ++
        c.deletes.flatMap (client.declaredFor (client.deleteExtras c)) := by
  have hf (positions : List Nat) (extras : Resource → List ExtraMethod) :
      ((positions.filterMap (client.resources[·]?)).flatMap extras).map ExtraMethod.declaration =
        positions.flatMap (client.declaredFor extras) := by
    induction positions with
    | nil => rfl
    | cons i rest ih =>
      rw [List.flatMap_cons, ← ih, declaredFor, List.filterMap_cons]
      cases client.resources[i]? with
      | none => rfl
      | some r => rw [List.flatMap_cons, List.map_append, Option.elim_some]
  rw [← hf, ← hf, ← List.map_append]
  rfl

namespace Consistent

/-- The extra methods that a collection is given have names that no method of it has. -/
theorem nodup_collectionExtras_iff (h : client.Consistent) (hc : c ∈ client.collections) :
    (∀ e ∈ client.collectionExtras c, c.Free e.name) ∧
      (((client.collectionExtras c).map ExtraMethod.declaration).Nodup ↔
        (∀ i ∈ c.refreshes, ∀ k ∈ c.refreshes,
          client.Contend c .refresh "getById" i k → i = k) ∧
        ∀ i ∈ c.deletes, ∀ k ∈ c.deletes,
          client.Contend c .delete "deleteById" i k → i = k) := by
  have hrefreshes : c.refreshes.Nodup := h.nodup_bound hc .refresh
  have hdeletes : c.deletes.Nodup := h.nodup_bound hc .delete
  have hfetch : ∀ i ∈ c.refreshes, client.Declares c .refresh "getById" i
      (client.declaredFor (client.fetchExtras c) i) := by
    intro i hi
    obtain ⟨b, hb⟩ := h.exists_binding hc (show i ∈ c.bound .refresh from hi)
    exact declares_fetch hb
  have hdelete : ∀ i ∈ c.deletes, client.Declares c .delete "deleteById" i
      (client.declaredFor (client.deleteExtras c) i) := by
    intro i hi
    obtain ⟨b, hb⟩ := h.exists_binding hc (show i ∈ c.bound .delete from hi)
    exact declares_delete hb
  have hapart : (c.refreshes.flatMap (client.declaredFor (client.fetchExtras c))).Disjoint
      (c.deletes.flatMap (client.declaredFor (client.deleteExtras c))) := by
    rw [List.disjoint_left]
    intro d hd hd'
    obtain ⟨i, hi, hd⟩ := List.mem_flatMap.mp hd
    obtain ⟨k, hk, hd'⟩ := List.mem_flatMap.mp hd'
    have hget := (hfetch i hi).name_cases hd
    have hdel := (hdelete k hk).name_cases hd'
    rcases hget with hget | hget <;> rcases hdel with hdel | hdel <;>
      exact absurd (hget.symm.trans hdel) (by decide)
  constructor
  · intro e he
    have hd := List.mem_map_of_mem (f := ExtraMethod.declaration) he
    rw [map_declaration_collectionExtras, List.mem_append, List.mem_flatMap, List.mem_flatMap] at hd
    rcases hd with ⟨i, hi, hd⟩ | ⟨i, hi, hd⟩
    · exact (hfetch i hi).free hd
    · exact (hdelete i hi).free hd
  · rw [map_declaration_collectionExtras, List.nodup_append',
      Declares.nodup_flatMap_iff hrefreshes hfetch,
      Declares.nodup_flatMap_iff hdeletes hdelete, and_iff_left hapart]

end Consistent

/-! ### The extra methods of a client -/

theorem references_addExtras (client : Client) (b : Binding) :
    client.addExtras.references b = client.references b := by
  unfold references methodsAt
  rw [methods_eq_of_outline client.outline_addExtras]

/-- Extra methods are not looked at when extra methods are made. -/
theorem collectionExtras_addExtras (client : Client) (c : Collection) (extras : List ExtraMethod) :
    client.addExtras.collectionExtras { c with extraMethods := extras } =
      client.collectionExtras c := by
  have hr (positions : List Nat) :
      positions.filterMap (client.addExtras.resources[·]?) =
        (positions.filterMap (client.resources[·]?)).map fun r =>
          { r with extraMethods := r.extraMethods ++ client.resourceExtras r } := by
    rw [List.map_filterMap]
    simp only [addExtras, List.getElem?_map]
  unfold collectionExtras
  simp only [hr, List.flatMap_map]
  unfold fetchExtras deleteExtras
  simp only [references_addExtras]

/-- Classification adds no extra methods. -/
theorem extraMethods_classifyEach (client : Client) (trials : List Trial) :
    (client.classifyEach trials).collections.map (·.extraMethods) =
      client.collections.map (·.extraMethods) := by
  unfold classifyEach
  induction trials generalizing client with
  | nil => rfl
  | cons trial rest ih =>
    rw [List.foldl_cons, ih, value_classify]
    apply Indexed.map_modify_of_eq
    exact fun c => rfl

end Client

namespace Assembly

/-- Collections of a service have the methods by identifier as extra methods, and no others. -/
theorem extraMethods_of_collection (a : Assembly) (service : Service) {c : Collection}
    (hc : c ∈ (a.client service).value.collections) :
    c.extraMethods = (a.client service).value.collectionExtras c := by
  cases hl : a.settings.fluentLite with
  | false =>
    rw [value_client_of_full service hl] at hc
    obtain ⟨group, _, rfl⟩ := List.mem_map.mp hc
    rfl
  | true =>
    rw [a.value_client service hl] at hc ⊢
    obtain ⟨before, hbefore, rfl⟩ := List.mem_map.mp hc
    have hnone : before.extraMethods ∈
        (a.unclassified service).collections.map (·.extraMethods) := by
      rw [← Client.extraMethods_classifyEach]
      exact List.mem_map_of_mem hbefore
    obtain ⟨start, hstart, he⟩ := List.mem_map.mp hnone
    obtain ⟨group, _, rfl⟩ := List.mem_map.mp hstart
    change [] = before.extraMethods at he
    rw [Client.collectionExtras_addExtras, ← he, List.nil_append]

/-- In the client of a service, no extra method of a collection takes the name of a method. They are
told apart by name and parameters exactly if no two resources that are fetched through the
collection contend for a declaration, and no two that are deleted. -/
theorem nodup_declarations_iff (a : Assembly) (service : Service) {c : Collection}
    (hc : c ∈ (a.client service).value.collections) :
    let client := (a.client service).value
    (∀ e ∈ c.extraMethods, c.Free e.name) ∧
      ((c.extraMethods.map ExtraMethod.declaration).Nodup ↔
        (∀ i ∈ c.refreshes, ∀ k ∈ c.refreshes,
          client.Contend c .refresh "getById" i k → i = k) ∧
        ∀ i ∈ c.deletes, ∀ k ∈ c.deletes,
          client.Contend c .delete "deleteById" i k → i = k) := by
  intro client
  rw [a.extraMethods_of_collection service hc]
  exact (a.consistent_client service).nodup_collectionExtras_iff hc

end Assembly

/-! ### Two resources on one shelf -/

namespace Workshop

/-- Tools and parts are created and fetched through one collection. -/
def shelved : Service where
  name := "Workshop"
  schemas := [identified "ToolInner", identified "PartInner"]
  groups :=
    [⟨"Shelf",
      [operation "createTool" .put toolUrl [body "ToolInner"] "ToolInner",
        operation "getTool" .get toolUrl [] "ToolInner",
        operation "createPart" .put partUrl [body "PartInner"] "PartInner",
        operation "getPart" .get partUrl [] "PartInner"]⟩]

theorem exists_shelf :
    ∃ c ∈ ((Assembly.fresh .standard).client shelved).value.collections,
      c.refreshes = [0, 1] ∧ c.extraMethods.map (·.signature) =
        ["Tool getById(String id)",
          "Response<Tool> getByIdWithResponse(String id, Context context)",
          "Part getById(String id)",
          "Response<Part> getByIdWithResponse(String id, Context context)"] ∧
      c.extraMethods.map ExtraMethod.declaration =
        [("getById", "String id"), ("getByIdWithResponse", "String id, Context context"),
          ("getById", "String id"), ("getByIdWithResponse", "String id, Context context")] := by
  have hfound : ((Assembly.fresh .standard).client shelved).value.collections.map (fun c =>
      (c.refreshes, c.extraMethods.map (·.signature),
        c.extraMethods.map ExtraMethod.declaration)) =
      [([0, 1], ["Tool getById(String id)",
          "Response<Tool> getByIdWithResponse(String id, Context context)",
          "Part getById(String id)",
          "Response<Part> getByIdWithResponse(String id, Context context)"],
        [("getById", "String id"), ("getByIdWithResponse", "String id, Context context"),
          ("getById", "String id"), ("getByIdWithResponse", "String id, Context context")])] := by
    decide +kernel
  obtain ⟨c, hc, he⟩ := List.mem_map.mp (List.mem_of_mem_head? (congrArg List.head? hfound))
  simp only [Prod.mk.injEq] at he
  exact ⟨c, hc, he⟩

end Workshop

theorem declarations_in_workshop :
    let client := ((Assembly.fresh .standard).client Workshop.shelved).value
    ∃ c ∈ client.collections, (∀ e ∈ c.extraMethods, c.Free e.name) ∧
      ((c.extraMethods.map ExtraMethod.declaration).Nodup ↔
        (∀ i ∈ c.refreshes, ∀ k ∈ c.refreshes,
          client.Contend c .refresh "getById" i k → i = k) ∧
        ∀ i ∈ c.deletes, ∀ k ∈ c.deletes,
          client.Contend c .delete "deleteById" i k → i = k) := by
  intro client
  obtain ⟨c, hc, _⟩ := Workshop.exists_shelf
  exact ⟨c, hc, Assembly.nodup_declarations_iff (.fresh .standard) Workshop.shelved hc⟩

/-- Both resources are fetched by identifier through methods of the same name and parameters. -/
theorem told_twice_in_workshop :
    let client := ((Assembly.fresh .standard).client Workshop.shelved).value
    ∃ c ∈ client.collections, c.refreshes = [0, 1] ∧
      c.extraMethods.map (·.signature) = ["Tool getById(String id)",
        "Response<Tool> getByIdWithResponse(String id, Context context)",
        "Part getById(String id)",
        "Response<Part> getByIdWithResponse(String id, Context context)"] ∧
      ¬ (c.extraMethods.map ExtraMethod.declaration).Nodup := by
  intro client
  obtain ⟨c, hc, hrefreshes, hsignatures, hdeclared⟩ := Workshop.exists_shelf
  refine ⟨c, hc, hrefreshes, hsignatures, ?_⟩
  rw [hdeclared]
  decide

end Lifecycle
