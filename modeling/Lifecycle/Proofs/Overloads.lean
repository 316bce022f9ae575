import Lifecycle.Sample
import Lifecycle.Proofs.Consistency
import Lifecycle.Proofs.FollowUp
import Lifecycle.Proofs.UrlWords

/-!
# Overloads of operations

An operation has two methods in a collection: a full one, which takes a context and all parameters,
and a short one. The methods of the operation at position `o` of a group are those at positions
`2 * o` and `2 * o + 1` of the collection. A create or an update refers to methods by name; where it
refers to the short method of an operation, it refers to the full one as well.
-/
namespace Lifecycle

theorem map_filter_eq_flatMap {α β : Type} (chosen : α → Bool) (f : α → β) (entries : List α) :
    (entries.filter chosen).map f = entries.flatMap fun x => if chosen x then [f x] else [] := by
  induction entries with
  | nil => rfl
  | cons x rest ih =>
    rw [List.filter_cons, List.flatMap_cons, ← ih]
    split <;> rfl

namespace Operation

/-- The method of an operation in a collection that takes a context and all parameters. -/
def fullMethod (op : Operation) : Method :=
  if op.paging.isSome then
    ⟨op.name, .paging, true, false, .paged (op.returnType.getD ""), op⟩
  else if op.longRunning then
    ⟨op.name, .longRunning, true, false, .plain op.returnType, op⟩
  else
    ⟨op.name ++ responseEnding, .simpleResponse, true, false, .response op.returnType, op⟩

/-- The other method of an operation in a collection. -/
def shortMethod (op : Operation) : Method :=
  if op.paging.isSome then
    ⟨op.name, .paging, false, op.hasOptionalParameters, .paged (op.returnType.getD ""), op⟩
  else if op.longRunning then
    ⟨op.name, .longRunning, false, op.hasOptionalParameters, .plain op.returnType, op⟩
  else
    ⟨op.name, .simple, false, op.hasOptionalParameters, .plain op.returnType, op⟩

section

variable (op : Operation)

@[simp] theorem operation_fullMethod : op.fullMethod.operation = op := by
  grind [fullMethod]

@[simp] theorem requiredOnly_fullMethod : op.fullMethod.requiredOnly = false := by
  grind [fullMethod]

@[simp] theorem hasContext_fullMethod : op.fullMethod.hasContext = true := by
  grind [fullMethod]

@[simp] theorem inCollection_fullMethod : op.fullMethod.kind.inCollection = true := by
  grind [fullMethod, MethodKind.inCollection]

@[simp] theorem operation_shortMethod : op.shortMethod.operation = op := by
  grind [shortMethod]

@[simp] theorem hasContext_shortMethod : op.shortMethod.hasContext = false := by
  grind [shortMethod]

theorem collectionMethods_cases :
    op.collectionMethods = [op.shortMethod, op.fullMethod] ∨
      op.collectionMethods = [op.fullMethod, op.shortMethod] := by
  unfold collectionMethods methods shortMethod fullMethod
  cases op.paging.isSome with
  | true => exact .inl rfl
  | false =>
    cases op.longRunning with
    | true => exact .inl rfl
    | false => exact .inr rfl

theorem mem_collectionMethods {m : Method} :
    m ∈ op.collectionMethods ↔ m = op.shortMethod ∨ m = op.fullMethod := by
  rcases op.collectionMethods_cases with h | h
  · simp [h]
  · simp [h, or_comm]

theorem length_collectionMethods : op.collectionMethods.length = 2 := by
  rcases op.collectionMethods_cases with h | h <;> rw [h] <;> rfl

/-- The full method is the only one with a context. -/
theorem filter_hasContext : op.collectionMethods.filter (·.hasContext) = [op.fullMethod] := by
  rcases op.collectionMethods_cases with h | h <;> rw [h] <;> simp

end

/-- Whether an operation sends JSON, or does not say what it sends. -/
def SendsJson (op : Operation) : Prop :=
  ∀ type, op.requestContentType = some type → "json".toList <:+: type.toList

theorem sendsJson_iff {m : Method} : m.sendsJson = true ↔ m.operation.SendsJson := by
  unfold Method.sendsJson SendsJson
  cases m.operation.requestContentType with
  | none => simp
  | some type => simp [Text.occurs_iff]

instance (op : Operation) : Decidable op.SendsJson :=
  decidable_of_iff (op.fullMethod.sendsJson = true) <| by
    rw [sendsJson_iff, operation_fullMethod]

end Operation

/-! ### References by name -/

namespace Client

theorem plainName_of_plain {name : String} (h : ¬ responseEnding.toList <:+ name.toList) :
    plainName name = name := by
  unfold plainName
  split
  · rename_i start hs
    exact absurd ⟨start, (Text.dropTail?_eq_some_iff.mp hs).symm⟩ h
  · rfl

theorem plainName_append (name : String) : plainName (name ++ responseEnding) = name := by
  have hs : Text.dropTail? responseEnding.toList (name ++ responseEnding).toList =
      some name.toList := by
    rw [Text.dropTail?_eq_some_iff, String.toList_append]
  rw [plainName, hs]
  exact String.ofList_toList

theorem ne_append_responseEnding (name : String) : name ≠ name ++ responseEnding := by
  intro he
  have hl := congrArg String.length he
  have hr : responseEnding.length = 12 := by decide
  rw [String.length_append, hr] at hl
  omega

/-- The test for a reference, spelled out by name, kind and verb. -/
theorem refersTo_iff {name : String} {m : Method} :
    refersTo name m = true ↔
      (m.name = plainName name ∨
        m.kind = .simpleResponse ∧ m.name = plainName name ++ responseEnding) ∧
      (m.verb = .get ∨ m.verb = .delete ∨ m.sendsModel = true) := by
  simp only [refersTo, Bool.and_eq_true, Bool.or_eq_true, beq_iff_eq, or_assoc]

theorem mem_referencesTo {methods : List Method} {name : String} {p : Nat} :
    p ∈ referencesTo methods name ↔
      ∃ m, methods[p]? = some m ∧ refersTo name m = true :=
  Indexed.mem_positions

/-- The short method is never referred to alone. -/
theorem refersTo_fullMethod {name : String} {op : Operation}
    (h : refersTo name op.shortMethod = true) : refersTo name op.fullMethod = true := by
  have hs : op.shortMethod.kind ≠ .simpleResponse := by grind [Operation.shortMethod]
  have hn : op.shortMethod.name = op.name := by grind [Operation.shortMethod]
  have hf : op.fullMethod.name = op.name ∨
      op.fullMethod.kind = .simpleResponse ∧ op.fullMethod.name = op.name ++ responseEnding := by
    grind [Operation.fullMethod]
  simp only [refersTo_iff, Method.verb, Method.sendsModel, Operation.operation_shortMethod,
    Operation.operation_fullMethod, hn, hs, false_and, or_false] at h ⊢
  refine ⟨?_, h.2⟩
  rw [← h.1]
  exact hf

/-! ### Methods of operations by position -/

theorem length_flatMap_collectionMethods (operations : List Operation) :
    (operations.flatMap Operation.collectionMethods).length = 2 * operations.length := by
  induction operations with
  | nil => rfl
  | cons op rest ih =>
    rw [List.flatMap_cons, List.length_append, op.length_collectionMethods, ih, List.length_cons]
    omega

theorem zipIdx_flatMap_collectionMethods (operations : List Operation) (k : Nat) :
    (operations.flatMap Operation.collectionMethods).zipIdx (2 * k) =
      (operations.zipIdx k).flatMap fun p => p.1.collectionMethods.zipIdx (2 * p.2) := by
  induction operations generalizing k with
  | nil => rfl
  | cons op rest ih =>
    have hk : 2 * k + op.collectionMethods.length = 2 * (k + 1) := by
      rw [op.length_collectionMethods]
      omega
    rw [List.flatMap_cons, List.zipIdx_append, hk, ih, List.zipIdx_cons, List.flatMap_cons]

/-- Each operation takes two positions, so its place among them is known. -/
theorem getElem?_flatMap_collectionMethods {operations : List Operation} {o : Nat} {op : Operation}
    (h : operations[o]? = some op) {q : Nat} (hq : q < 2) :
    (operations.flatMap Operation.collectionMethods)[2 * o + q]? = op.collectionMethods[q]? := by
  induction operations generalizing o with
  | nil => cases h
  | cons first rest ih =>
    rw [List.flatMap_cons]
    cases o with
    | zero =>
      obtain rfl : first = op := Option.some.inj h
      rw [Nat.mul_zero, Nat.zero_add, List.getElem?_append_left]
      rwa [Operation.length_collectionMethods]
    | succ o =>
      have ho : 2 * (o + 1) + q = first.collectionMethods.length + (2 * o + q) := by
        rw [first.length_collectionMethods]
        omega
      rw [ho, List.getElem?_append_right (Nat.le_add_right _ _), Nat.add_sub_cancel_left]
      exact ih h

/-- Methods at positions that are not bound. -/
def unbound (bound : Nat → Bool) (methods : List (Method × Nat)) : List Method :=
  (methods.filter fun p => !bound p.2).map (·.1)

theorem unbound_pair (bound : Nat → Bool) (first second : Method) (n : Nat) :
    unbound bound ([first, second].zipIdx n) =
      (if bound n then [] else [first]) ++ (if bound (n + 1) then [] else [second]) := by
  cases h : bound n <;> cases h' : bound (n + 1) <;> simp [unbound, h, h']

/-- Among the methods of an operation that are not bound, the full one becomes samples, unless both
are bound. -/
theorem filter_hasSamples_unbound (bound : Nat → Bool) (op : Operation) (o : Nat)
    (full : ∀ short q : Nat, short < 2 → q < 2 →
      op.collectionMethods[short]? = some op.shortMethod →
      op.collectionMethods[q]? = some op.fullMethod →
      bound (2 * o + short) = true → bound (2 * o + q) = true) :
    (unbound bound (op.collectionMethods.zipIdx (2 * o))).filter (·.hasSamples) =
      if op.SendsJson ∧ bound (2 * o) = false ∧ bound (2 * o + 1) = false then [op.fullMethod]
      else [] := by
  have hs : op.shortMethod.hasSamples = false := by
    rw [Method.hasSamples, Method.isSampled, Operation.hasContext_shortMethod, Bool.and_false,
      Bool.false_and]
  have hf : op.fullMethod.hasSamples = decide op.SendsJson := by
    rw [Bool.eq_iff_iff, decide_eq_true_iff, Method.hasSamples, Method.isSampled,
      Operation.hasContext_fullMethod, Operation.inCollection_fullMethod, Bool.true_and,
      Bool.true_and, Operation.sendsJson_iff, Operation.operation_fullMethod]
  -- which of the two comes first depends on how the operation is invoked
  rcases op.collectionMethods_cases with h | h
  · have hc := full 0 1 (by decide) (by decide) (by rw [h]; rfl) (by rw [h]; rfl)
    rw [h, unbound_pair, List.filter_append]
    cases h0 : bound (2 * o) with
    | true =>
      have h1 : bound (2 * o + 1) = true := hc h0
      simp [h1]
    | false => cases h1 : bound (2 * o + 1) <;> simp [List.filter_cons, hs, hf]
  · have hc := full 1 0 (by decide) (by decide) (by rw [h]; rfl) (by rw [h]; rfl)
    rw [h, unbound_pair, List.filter_append]
    cases h1 : bound (2 * o + 1) with
    | true =>
      have h0 : bound (2 * o) = true := hc h1
      simp [h0]
    | false => cases h0 : bound (2 * o) <;> simp [List.filter_cons, hs, hf]

/-! ### Methods that creates and updates refer to -/

variable {client : Client} {c : Collection}

/-- A create or an update of a resource of a collection refers to the method at a position. -/
def RefersAt (client : Client) (c : Collection) (p : Nat) : Prop :=
  ∃ phase, (phase = .create ∨ phase = .update) ∧ ∃ i ∈ c.bound phase, ∃ b,
    client.bindingAt? phase i = some b ∧ p ∈ b.references

/-- Bound is what some binding to the collection refers to. -/
theorem mem_boundMethods {p : Nat} : p ∈ client.boundMethods c ↔ client.RefersAt c p := by
  have hphase (phase : Phase) :
      (p ∈ (c.bound phase).flatMap fun i =>
        (client.bindingAt? phase i).elim [] (·.references)) ↔
        ∃ i ∈ c.bound phase, ∃ b, client.bindingAt? phase i = some b ∧ p ∈ b.references := by
    rw [List.mem_flatMap]
    apply exists_congr
    intro i
    apply and_congr_right
    intro _
    cases client.bindingAt? phase i <;> simp
  rw [boundMethods, List.mem_append, RefersAt]
  refine (or_congr (hphase .create) (hphase .update)).trans ?_
  simp only [or_and_right, exists_or, exists_eq_left]

instance (client : Client) (c : Collection) (p : Nat) : Decidable (client.RefersAt c p) :=
  decidable_of_iff _ mem_boundMethods

/-- What is bound refers to all methods behind the name of the method that was found. -/
def RefersByName (client : Client) : Prop :=
  ∀ phase i b, client.bindingAt? phase i = some b →
    b.references = referencesTo (client.methods b.collection) b.method

/-- Where the short method of an operation is referred to, the full one is too. -/
theorem refersAt_full (h : client.Consistent) (hr : client.RefersByName) {j : Nat}
    (hc : client.collections[j]? = some c) {operations : List Operation}
    (hm : c.methods = operations.flatMap Operation.collectionMethods) {o : Nat} {op : Operation}
    (ho : operations[o]? = some op) {short q : Nat} (hs : short < 2) (hq : q < 2)
    (hshort : op.collectionMethods[short]? = some op.shortMethod)
    (hfull : op.collectionMethods[q]? = some op.fullMethod)
    (hat : client.RefersAt c (2 * o + short)) : client.RefersAt c (2 * o + q) := by
  obtain ⟨phase, hp, i, hi, b, hb, hmem⟩ := hat
  refine ⟨phase, hp, i, hi, b, hb, ?_⟩
  have hj : b.collection = j := by
    obtain ⟨b', hb', hj⟩ := (h.listed phase j c hc i).mp hi
    obtain rfl : b = b' := Option.some.inj (hb.symm.trans hb')
    exact hj
  have hmethods : client.methods b.collection = operations.flatMap Operation.collectionMethods := by
    rw [hj, methods, hc]
    exact hm
  rw [hr phase i b hb, hmethods, mem_referencesTo] at hmem ⊢
  obtain ⟨m, hat, hrefers⟩ := hmem
  rw [getElem?_flatMap_collectionMethods ho hs, hshort] at hat
  obtain rfl := Option.some.inj hat
  refine ⟨op.fullMethod, ?_, refersTo_fullMethod hrefers⟩
  rw [getElem?_flatMap_collectionMethods ho hq, hfull]

/-- The full methods of all operations that no create and no update refers to become samples. -/
theorem filter_hasSamples_plainMethods (h : client.Consistent) (hr : client.RefersByName) {j : Nat}
    (hc : client.collections[j]? = some c) {operations : List Operation}
    (hm : c.methods = operations.flatMap Operation.collectionMethods) :
    (client.plainMethods c).filter (·.hasSamples) =
      (operations.zipIdx.filter fun p => p.1.SendsJson ∧ ¬ client.RefersAt c (2 * p.2) ∧
        ¬ client.RefersAt c (2 * p.2 + 1)).map (·.1.fullMethod) := by
  let bound (p : Nat) : Bool := (client.boundMethods c).contains p
  have hb (p : Nat) : bound p = true ↔ client.RefersAt c p :=
    List.contains_iff_mem.trans mem_boundMethods
  have hplain : client.plainMethods c =
      operations.zipIdx.flatMap fun p =>
        unbound bound (p.1.collectionMethods.zipIdx (2 * p.2)) := by
    have hz := zipIdx_flatMap_collectionMethods operations 0
    change unbound bound c.methods.zipIdx = _
    rw [hm, hz, unbound, List.filter_flatMap, List.map_flatMap]
    rfl
  rw [hplain, List.filter_flatMap, map_filter_eq_flatMap]
  apply List.flatMap_congr
  rintro ⟨op, o⟩ hmem
  have ho := List.mk_mem_zipIdx_iff_getElem?.mp hmem
  rw [filter_hasSamples_unbound]
  · simp only [← hb, Bool.not_eq_true, decide_eq_true_eq]
  · intro short q hs hq hshort hfull hat
    rw [hb] at hat ⊢
    exact refersAt_full h hr hc hm ho hs hq hshort hfull hat

end Client

namespace Assembly

variable (a : Assembly) (service : Service)

/-- Whatever is bound to a resource follows from a create that was offered for it. -/
theorem offered_of_bindingAt? {phase : Phase} {i : Nat} {b : Binding}
    (hb : (a.client service).value.bindingAt? phase i = some b) :
    let start := a.unclassified service
    ∃ f, ∃ trial : Trial, f.resource = i ∧
      f ∈ start.offers trial.collection trial.candidates Category.priority ∧
      start.boundBy f phase = some b := by
  obtain ⟨r, hr, hbind⟩ := Option.bind_eq_some_iff.mp hb
  cases hc : r.create with
  | none =>
    have hn := ((a.consistent_client service).coherent i r hr).create_first hc
    rw [hn.1] at hbind
    cases hbind
  | some create =>
    have lite := lite_of_binding? hr hbind
    obtain ⟨before, f, trial, hbefore, hi, hm, he⟩ := offered_of_create lite hr hc
    have hn : before.binding? phase = none := by
      rw [← outline_of_mem_unclassified (List.mem_of_getElem? hbefore), before.binding?_outline]
    have hs : ((a.unclassified service).settled f before).binding? phase = some b := by
      rw [he, ← hbind]
      cases phase <;> rfl
    rw [Client.binding?_settled, hn, Option.or_none] at hs
    exact ⟨f, trial, hi, hm, hs⟩

theorem methods_client (collection : Nat) :
    (a.client service).value.methods collection =
      (a.unclassified service).methods collection := by
  rw [← Client.methods_outline, a.outline_client]

/-- References of all bindings are the ones found by the name of their method. -/
theorem refersByName_client : (a.client service).value.RefersByName := by
  intro phase i b hb
  obtain ⟨f, _, _, _, hs⟩ := a.offered_of_bindingAt? service hb
  obtain ⟨_, hcol, _, href⟩ := Client.boundBy_eq_some hs
  rw [href, hcol, methods_client]

/-- The collection of a group offers the methods of its operations. -/
theorem group_of_collection {j : Nat} {c : Collection}
    (hc : (a.client service).value.collections[j]? = some c) :
    ∃ g, service.groups[j]? = some g ∧ c.name = g.name ∧
      c.methods = g.operations.flatMap Operation.collectionMethods := by
  have ho : ((a.client service).value.collections.map Collection.outline)[j]? =
      (service.groups.map Collection.ofGroup)[j]? := by
    have h := congrArg Client.collections (a.outline_client service)
    exact congrArg (·[j]?) h
  rw [List.getElem?_map, List.getElem?_map, hc, Option.map_some] at ho
  obtain ⟨g, hg, he⟩ := Option.map_eq_some_iff.mp ho.symm
  exact ⟨g, hg, congrArg Collection.name he.symm, congrArg Collection.methods he.symm⟩

end Assembly

end Lifecycle
