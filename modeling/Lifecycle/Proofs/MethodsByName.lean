import Mathlib.Data.List.Sort
import Lifecycle.Proofs.BoundMethods

/-!
# The methods behind the name of an operation

An operation takes two neighbouring positions in its collection, the one after those of the
operations before it. As long as the operations of a group have names of their own, none of which
ends like that of a full response, the name of an operation leads to these two positions and to no
others, with or without that ending. It leads nowhere where no method may be referred to at all.
-/
namespace Lifecycle

/-- No two operations share a name, and no name ends like that of a full response. -/
structure OperationGroup.WellNamed (g : OperationGroup) : Prop where
  distinct : (g.operations.map (·.name)).Nodup
  plain : ∀ op ∈ g.operations, ¬ responseEnding.toList <:+ op.name.toList

namespace Operation

/-- Whether methods of the operation may be referred to: it fetches or deletes, or it sends a
model. -/
def Referable (op : Operation) : Prop :=
  op.verb = .get ∨ op.verb = .delete ∨
    ∃ p ∈ op.parameters, p.location = .body ∧ ∃ name, p.type = .model name

/-- The methods of an operation are those at a position and at the next one. One of them takes a
context, and with it all that callers supply. -/
structure Occupies (op : Operation) (methods : List Method) (p : Nat) : Prop where
  owns : ∀ q : Nat, (∃ m : Method, methods[q]? = some m ∧ m.operation = op) ↔ q = p ∨ q = p + 1
  context : ∃! q : Nat, ∃ m : Method, methods[q]? = some m ∧ m.operation = op ∧ m.hasContext = true
  complete : ∀ (q : Nat) (m : Method), methods[q]? = some m → m.operation = op →
    m.hasContext = true → m.parameters = op.parameters.filter fun p => !p.constant && !p.fromClient

variable {op : Operation} {m : Method}

theorem operation_of_mem (h : m ∈ op.collectionMethods) : m.operation = op := by
  rcases op.mem_collectionMethods.mp h with rfl | rfl
  · exact op.operation_shortMethod
  · exact op.operation_fullMethod

theorem eq_fullMethod_of_mem (h : m ∈ op.collectionMethods) (hc : m.hasContext = true) :
    m = op.fullMethod := by
  rcases op.mem_collectionMethods.mp h with rfl | rfl
  · rw [op.hasContext_shortMethod] at hc
    cases hc
  · rfl

theorem parameters_fullMethod (op : Operation) :
    op.fullMethod.parameters = op.parameters.filter fun p => !p.constant && !p.fromClient := by
  rw [Method.parameters, operation_fullMethod, requiredOnly_fullMethod]
  simp [Parameter.isCallerSupplied]

/-- The full method stands at one of the two positions of an operation. -/
theorem exists_place_fullMethod (op : Operation) :
    ∃ q < 2, ∀ r m, op.collectionMethods[r]? = some m → (m.hasContext = true ↔ r = q) := by
  rcases op.collectionMethods_cases with h | h
  · refine ⟨1, by decide, fun r m hr => ?_⟩
    rw [h] at hr
    match r with
    | 0 => obtain rfl := Option.some.inj hr; simp
    | 1 => obtain rfl := Option.some.inj hr; simp
  · refine ⟨0, by decide, fun r m hr => ?_⟩
    rw [h] at hr
    match r with
    | 0 => obtain rfl := Option.some.inj hr; simp
    | 1 => obtain rfl := Option.some.inj hr; simp

theorem referable_iff (h : m ∈ op.collectionMethods) :
    op.Referable ↔ m.verb = .get ∨ m.verb = .delete ∨ m.sendsModel = true := by
  rw [Client.sendsModel_iff, Method.verb, operation_of_mem h, Referable]

end Operation

namespace Client

/-! ### Positions of methods -/

variable {operations : List Operation} {o q : Nat} {op : Operation} {m : Method}

/-- The method at a position is one of the operation that the position belongs to. -/
theorem exists_operation_of_getElem?
    (h : (operations.flatMap Operation.collectionMethods)[q]? = some m) :
    ∃ op, operations[q / 2]? = some op ∧ op.collectionMethods[q % 2]? = some m := by
  have hq := (List.getElem?_eq_some_iff.mp h).1
  rw [length_flatMap_collectionMethods] at hq
  have ho : operations[q / 2]? = some operations[q / 2] := List.getElem?_eq_getElem (by omega)
  refine ⟨_, ho, ?_⟩
  rw [← getElem?_flatMap_collectionMethods ho (Nat.mod_lt q (by decide)), Nat.div_add_mod, h]

/-- The name of an operation tells where it stands. -/
theorem position_of_name (hd : (operations.map (·.name)).Nodup) {op' : Operation} {o' : Nat}
    (ho : operations[o]? = some op) (ho' : operations[o']? = some op') (hn : op'.name = op.name) :
    o' = o := by
  have hlt : o' < (operations.map (·.name)).length := by
    rw [List.length_map]
    exact (List.getElem?_eq_some_iff.mp ho').1
  apply (List.getElem?_inj hlt hd).mp
  rw [List.getElem?_map, List.getElem?_map, ho, ho', Option.map_some, Option.map_some, hn]

/-- Of two overloads exactly one has a context, and no other operation reaches its positions. -/
theorem occupies_of_distinct (hd : (operations.map (·.name)).Nodup)
    (ho : operations[o]? = some op) :
    op.Occupies (operations.flatMap Operation.collectionMethods) (2 * o) := by
  have hplace {q : Nat} {m : Method}
      (h : (operations.flatMap Operation.collectionMethods)[q]? = some m) (hm : m.operation = op) :
      q / 2 = o ∧ op.collectionMethods[q % 2]? = some m := by
    obtain ⟨op', ho', hat⟩ := exists_operation_of_getElem? h
    obtain rfl : op' = op :=
      (Operation.operation_of_mem (List.mem_of_getElem? hat)).symm.trans hm
    exact ⟨position_of_name hd ho ho' rfl, hat⟩
  constructor
  · intro q
    constructor
    · rintro ⟨m, h, hm⟩
      have hq := (hplace h hm).1
      omega
    · intro hq
      have hr : q - 2 * o < 2 := by omega
      have hin : q - 2 * o < op.collectionMethods.length := by
        rw [op.length_collectionMethods]
        exact hr
      have hat := getElem?_flatMap_collectionMethods ho hr
      rw [List.getElem?_eq_getElem hin, show 2 * o + (q - 2 * o) = q by omega] at hat
      exact ⟨_, hat, Operation.operation_of_mem (List.getElem_mem hin)⟩
  · obtain ⟨r, hr, hfull⟩ := op.exists_place_fullMethod
    have hin : r < op.collectionMethods.length := by
      rw [op.length_collectionMethods]
      exact hr
    have hat := List.getElem?_eq_getElem hin
    refine ⟨2 * o + r, ⟨op.collectionMethods[r], ?_, ?_, ?_⟩, ?_⟩
    · rw [getElem?_flatMap_collectionMethods ho hr, hat]
    · exact Operation.operation_of_mem (List.getElem_mem hin)
    · exact (hfull r _ hat).mpr rfl
    · rintro q ⟨m, h, hm, hc⟩
      obtain ⟨hq, hat⟩ := hplace h hm
      have hqr := (hfull _ _ hat).mp hc
      omega
  · intro q m h hm hc
    obtain ⟨_, hat⟩ := hplace h hm
    rw [Operation.eq_fullMethod_of_mem (List.mem_of_getElem? hat) hc, op.parameters_fullMethod]

/-! ### Names that lead to methods -/

/-- A name that does not end like that of a full response stands for the operation of that name. -/
theorem refersTo_iff_of_plain {name : String} (hname : plainName name = op.name)
    {op' : Operation} (hop : ¬ responseEnding.toList <:+ op.name.toList)
    (hm : m ∈ op'.collectionMethods) :
    refersTo name m = true ↔ op'.name = op.name ∧ op'.Referable := by
  have hne : op'.name ++ responseEnding ≠ op.name := by
    intro he
    apply hop
    rw [← he, String.toList_append]
    exact List.suffix_append _ _
  have hboth : op'.name ++ responseEnding = op.name ++ responseEnding ↔ op'.name = op.name := by
    simp [← String.toList_inj]
  have hcases : m.name = op'.name ∧ m.kind ≠ .simpleResponse ∨
      m.name = op'.name ++ responseEnding ∧ m.kind = .simpleResponse := by
    rcases op'.mem_collectionMethods.mp hm with rfl | rfl
    · exact .inl (by grind [Operation.shortMethod])
    · grind [Operation.fullMethod]
  rw [refersTo_iff, hname, ← Operation.referable_iff hm]
  apply and_congr_left
  intro _
  rcases hcases with ⟨hn, hk⟩ | ⟨hn, hk⟩
  · simp [hn, hk]
  · simp [hn, hk, hne, hboth]

variable {g : OperationGroup}

/-- Either spelling of the name finds both overloads, or none if the operation cannot be referred
to. -/
theorem mem_referencesTo_iff (h : g.WellNamed) (ho : g.operations[o]? = some op) {name : String}
    (hname : plainName name = op.name) :
    q ∈ referencesTo (Collection.ofGroup g).methods name ↔
      op.Referable ∧ (q = 2 * o ∨ q = 2 * o + 1) := by
  have hplain := h.plain op (List.mem_of_getElem? ho)
  have hoccupies := occupies_of_distinct h.distinct ho
  rw [mem_referencesTo, ← hoccupies.owns]
  constructor
  · rintro ⟨m, hat, hr⟩
    obtain ⟨op', ho', hm⟩ := exists_operation_of_getElem? hat
    have hm := List.mem_of_getElem? hm
    obtain ⟨hn, href⟩ := (refersTo_iff_of_plain hname hplain hm).mp hr
    obtain rfl := position_of_name h.distinct ho ho' hn
    obtain rfl : op = op' := Option.some.inj (ho.symm.trans ho')
    exact ⟨href, m, hat, Operation.operation_of_mem hm⟩
  · rintro ⟨href, m, hat, hop⟩
    obtain ⟨op', ho', hm⟩ := exists_operation_of_getElem? hat
    have hm := List.mem_of_getElem? hm
    obtain rfl : op' = op := (Operation.operation_of_mem hm).symm.trans hop
    exact ⟨m, hat, (refersTo_iff_of_plain hname hplain hm).mpr ⟨rfl, href⟩⟩

end Client

/-- In the collection of a group with good names, the operation at position `o` has the methods at
`2 * o` and `2 * o + 1`, one of which takes a context and all that callers supply. Its name leads to
both, whether or not it is written with the ending of full responses, unless the operation neither
fetches nor deletes nor sends a model: then it leads to none. -/
theorem OperationGroup.methods_found_by_name {g : OperationGroup} (h : g.WellNamed) {o : Nat}
    {op : Operation} (ho : g.operations[o]? = some op) :
    let methods := (Collection.ofGroup g).methods
    op.Occupies methods (2 * o) ∧
      ∀ name ∈ [op.name, op.name ++ responseEnding],
        (op.Referable → Client.referencesTo methods name = [2 * o, 2 * o + 1]) ∧
        (¬ op.Referable → Client.referencesTo methods name = []) := by
  intro methods
  refine ⟨Client.occupies_of_distinct h.distinct ho, ?_⟩
  intro name hmem
  have hname : Client.plainName name = op.name := by
    rcases List.mem_pair.mp hmem with rfl | rfl
    · exact Client.plainName_of_plain (h.plain op (List.mem_of_getElem? ho))
    · exact Client.plainName_append op.name
  have hiff (q : Nat) := Client.mem_referencesTo_iff (q := q) h ho hname
  constructor
  · intro href
    -- both lists are increasing, so their members tell them apart
    have hsorted := (Client.increasing_referencesTo methods name).sorted
    apply List.Pairwise.eq_of_mem_iff hsorted (by simp)
    intro q
    rw [hiff, List.mem_pair]
    exact and_iff_right href
  · intro hn
    rw [List.eq_nil_iff_forall_not_mem]
    intro q hq
    exact hn ((hiff q).mp hq).1

namespace Workshop

def build : Operation :=
  { operation "build" .put toolUrl [body "ToolInner"] "ToolInner" with longRunning := true }

def sharpen : Operation :=
  operation "sharpen" .post (toolUrl ++ "/sharpen") [] "ToolInner"

/-- Tools are listed page by page, it takes long to build one, and they can be sharpened. -/
def bench : OperationGroup where
  name := "Bench"
  operations :=
    [{ operation "list" .get "/tools" [] "ToolInner" with paging := some ⟨"value"⟩ }, build,
      sharpen]

theorem bench_wellNamed : bench.WellNamed where
  distinct := by decide +kernel
  plain := by decide +kernel

end Workshop

theorem found_by_name_in_workshop :
    let g := Workshop.bench
    let methods := (Collection.ofGroup g).methods
    g.WellNamed ∧ g.operations[1]? = some Workshop.build ∧
      g.operations[2]? = some Workshop.sharpen ∧
      Workshop.build.Occupies methods 2 ∧ Workshop.sharpen.Occupies methods 4 ∧
      Client.referencesTo methods "buildWithResponse" = [2, 3] ∧
      Client.referencesTo methods "sharpen" = [] := by
  intro g methods
  have hg := Workshop.bench_wellNamed
  have hbuild : g.operations[1]? = some Workshop.build := rfl
  have hsharpen : g.operations[2]? = some Workshop.sharpen := rfl
  have hsent : Workshop.build.Referable :=
    .inr (.inr ⟨Workshop.body "ToolInner", by simp [Workshop.build, Workshop.operation], rfl,
      "ToolInner", rfl⟩)
  have hnone : ¬ Workshop.sharpen.Referable := by
    simp [Operation.Referable, Workshop.sharpen, Workshop.operation]
  obtain ⟨bplace, bnames⟩ := OperationGroup.methods_found_by_name hg hbuild
  obtain ⟨splace, snames⟩ := OperationGroup.methods_found_by_name hg hsharpen
  have hending : Workshop.build.name ++ responseEnding = "buildWithResponse" := by decide +kernel
  refine ⟨hg, hbuild, hsharpen, bplace, splace, ?_, (snames _ List.mem_cons_self).2 hnone⟩
  rw [← hending]
  exact (bnames _ (by simp)).1 hsent

end Lifecycle
