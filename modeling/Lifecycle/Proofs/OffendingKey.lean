import Lifecycle.Mock.Test
import Lifecycle.Proofs.Drawing
import Lifecycle.Proofs.Lineage

/-!
# Keys that data is refused for

A draw is refused where a value is about to be written at a path, and for nothing else. So the key
that a refusal names is a name on a path, and it suggests a secret, wherever in the request or the
response of a test the value belongs. The path is that of a property which is not constant, in a
schema that is come to along parents and along the types of such properties.
-/
namespace Lifecycle

/-- The schema that a type refers to, directly or as what its lists and maps hold. -/
def ValueType.innermost? : ValueType → Option String
  | .list item => item.innermost?
  | .map value => value.innermost?
  | .model name => some name
  | _ => none

/-- A schema leads to its parent and to those that the types of its properties refer to. -/
inductive Refers (schemas : List Schema) (s t : Schema) : Prop
  | parent (found : s.parent? schemas = some t)
  | property {p : Property} {name : String} (declared : p ∈ s.properties)
      (varies : p.constant = false) (named : p.type.innermost? = some name)
      (found : findSchema schemas name = some t)

namespace Mock

open Json

variable {γ α β : Type} {P : String → Prop}

/-- Whatever key a draw is refused for meets a condition. -/
def Blames (x : Draw γ α) (P : String → Prop) : Prop :=
  ∀ g r, (x.run g).1 = .error r → P r.key

/-- Whatever a draw is refused for suggests a secret. -/
abbrev BlamesSecrets (x : Draw γ α) : Prop :=
  Blames x fun key => suggestsSecret key = true

theorem Granted.blames {x : Draw γ α} (h : Granted x) : Blames x P := by
  intro g r hr
  have ho := h g
  rw [hr] at ho
  cases ho

theorem blames_pure (a : α) : Blames (pure a : Draw γ α) P := (granted_pure a).blames

/-- A sequence goes on with what its first step may yield. -/
theorem Blames.bind_yields {x : Draw γ α} {f : α → Draw γ β} {Q : α → Prop} (hx : Blames x P)
    (hy : Yields x Q) (hf : ∀ a, Q a → Blames (f a) P) : Blames (x >>= f) P := by
  intro g r h
  rcases hr : x.run g with ⟨s | a, g'⟩
  · rw [run_bind_error hr] at h
    cases h
    exact hx g r (by rw [hr])
  · rw [run_bind_ok hr] at h
    exact hf a (hy g a (by rw [hr])) g' r h

theorem Blames.bind {x : Draw γ α} {f : α → Draw γ β} (hx : Blames x P)
    (hf : ∀ a, Blames (f a) P) : Blames (x >>= f) P :=
  hx.bind_yields (yields_any x) fun a _ => hf a

theorem blames_insertChecked {path : List String}
    (hp : ∀ key ∈ path, suggestsSecret key = true → P key) (v : Value) (object : Keyed Value) :
    Blames (ExceptT.mk (pure (insertChecked path v object)) : Draw γ (Keyed Value)) P := by
  intro g r h
  change insertChecked path v object = .error r at h
  unfold insertChecked at h
  split at h
  · rename_i key hk
    cases h
    exact hp key (List.mem_of_find?_eq_some hk) (List.find?_some hk)
  · cases h

theorem blames_items {item : Draw γ Value} (hi : Blames item P) (n : Nat) :
    Blames (items item n) P := by
  induction n with
  | zero => exact blames_pure []
  | succ n ih => exact hi.bind fun v => ih.bind fun rest => blames_pure _

variable [Generator γ]

theorem blames_entries {item : Draw γ Value} (hi : Blames item P) (n : Nat)
    (members : Keyed Value) : Blames (entries item n members) P := by
  induction n generalizing members with
  | zero => exact blames_pure members
  | succ n ih =>
    refine hi.bind fun v => ?_
    cases v.isNull with
    | true => exact ih members
    | false => exact granted_text.blames.bind fun key => ih (Keyed.put key v members)

/-- Only values of schemas are refused, for what their properties are refused for. -/
theorem blames_value {model : Nat → String → Draw γ Value} {type : ValueType}
    (hm : ∀ depth name, type.innermost? = some name → Blames (model depth name) P) (depth : Nat) :
    Blames (value model depth type) P := by
  induction type generalizing depth with
  | list item ih =>
    unfold value
    split
    · exact (granted_drawn _).blames.bind fun n =>
        (blames_items (ih hm (depth + 1)) (n + 1)).bind fun vs => blames_pure _
    · exact blames_pure _
  | map item ih =>
    unfold value
    split
    · exact (granted_drawn _).blames.bind fun n =>
        (blames_entries (ih hm (depth + 1)) (n + 1) []).bind fun vs => blames_pure _
    · exact blames_pure _
  | model name => exact hm (depth + 1) name rfl
  | _ => exact (granted_leaf model depth rfl).blames

theorem blames_leavesOut (depth : Nat) (p : Property) :
    Blames (leavesOut depth p : Draw γ Bool) P := by
  unfold leavesOut
  split
  · exact blames_pure true
  · split
    · exact blames_pure false
    · split
      · exact blames_pure true
      · exact (granted_drawn _).blames.bind fun chance => blames_pure _

theorem blames_members {valueOf : ValueType → Draw γ Value} (depth : Nat)
    {properties : List Property}
    (hv : ∀ p ∈ properties, p.constant = false → Blames (valueOf p.type) P)
    (hp : ∀ p ∈ properties, p.constant = false →
      ∀ key ∈ p.path, suggestsSecret key = true → P key)
    (object : Keyed Value) : Blames (members valueOf depth properties object) P := by
  induction properties generalizing object with
  | nil => exact blames_pure object
  | cons p rest ih =>
    rw [List.forall_mem_cons] at hv hp
    refine (blames_leavesOut depth p).bind_yields (yields_leavesOut depth p) fun out hout => ?_
    cases out with
    | true => exact ih hv.2 hp.2 object
    | false =>
      have hc : p.constant = false := hout rfl
      refine (hv.1 hc).bind fun v => ?_
      cases v.isNull with
      | true => exact ih hv.2 hp.2 object
      | false =>
        exact (blames_insertChecked (hp.1 hc) v object).bind fun after => ih hv.2 hp.2 after

/-! ### Schemas -/

/-- Some schemas lead to no others, and the names on their paths that suggest secrets meet a
condition. -/
structure Covers (schemas : List Schema) (covered : Schema → Prop) (P : String → Prop) : Prop where
  closed : ∀ s t, covered s → Refers schemas s t → covered t
  keys : ∀ s, covered s → ∀ p ∈ s.properties, p.constant = false →
    ∀ key ∈ p.path, suggestsSecret key = true → P key

variable {schemas : List Schema} {covered : Schema → Prop} {schema : Schema}

theorem Covers.of_extends (h : Covers schemas covered P) (hs : covered schema) {s : Schema}
    (he : Extends schemas schema s) : covered s := by
  induction he with
  | single hparent => exact h.closed _ _ hs (.parent hparent)
  | tail _ hparent ih => exact h.closed _ _ ih (.parent hparent)

theorem Covers.exists_of_mem_merged (h : Covers schemas covered P) (hs : covered schema)
    {p : Property} (hp : p ∈ mergedProperties schemas schema) :
    ∃ s, covered s ∧ p ∈ s.properties := by
  obtain ⟨s, hmem, hps⟩ := exists_layer_of_mem_mergedProperties hp
  rcases List.mem_cons.mp hmem with rfl | hmem
  · exact ⟨s, hs, hps⟩
  · exact ⟨s, h.of_extends hs (mem_ancestors_iff.mp hmem), hps⟩

theorem blames_object (h : Covers schemas covered P) {named : Nat → String → Draw γ Value}
    (hn : ∀ depth name, (∀ s, findSchema schemas name = some s → covered s) →
      Blames (named depth name) P) (depth : Nat) (hs : covered schema) :
    Blames (object schemas named depth schema) P := by
  unfold object
  split
  · exact blames_pure _
  · refine (blames_members depth ?_ ?_ []).bind fun ms => blames_pure _
    · intro p hp hc
      obtain ⟨s, hs, hps⟩ := h.exists_of_mem_merged hs hp
      refine blames_value (fun depth name hname => hn depth name ?_) depth
      exact fun t ht => h.closed s t hs (.property hps hc hname ht)
    · intro p hp hc
      obtain ⟨s, hs, hps⟩ := h.exists_of_mem_merged hs hp
      exact h.keys s hs p hps hc

theorem blames_objectWithin (h : Covers schemas covered P) (levels depth : Nat) {name : String}
    (hs : ∀ s, findSchema schemas name = some s → covered s) :
    Blames (objectWithin schemas levels depth name : Draw γ Value) P := by
  induction levels generalizing depth name with
  | zero => exact blames_pure _
  | succ levels ih =>
    rw [objectWithin]
    cases hf : findSchema schemas name with
    | none => exact blames_pure _
    | some schema => exact blames_object h (fun depth _ hn => ih depth hn) depth (hs schema hf)

/-! ### The two halves of a test -/

theorem covers_all (schemas : List Schema) :
    Covers schemas (fun _ => True) fun key => suggestsSecret key = true :=
  ⟨fun _ _ _ _ => trivial, fun _ _ _ _ _ _ _ hs => hs⟩

/-- Objects of a schema are refused for suspicious keys only. -/
theorem blames_secrets (schemas : List Schema) (depth : Nat) (name : String) :
    BlamesSecrets (valueOfSchemaNamed schemas depth name : Draw γ Value) :=
  blames_objectWithin (covers_all schemas) levels depth fun _ _ => trivial

theorem blames_arguments (schemas : List Schema) (parameters : List Parameter)
    (values : Keyed Value) :
    BlamesSecrets (arguments schemas parameters values : Draw γ (Keyed Value)) := by
  induction parameters generalizing values with
  | nil => exact blames_pure values
  | cons p rest ih =>
    have hp : BlamesSecrets (valueOfType schemas 0 p.type : Draw γ Value) :=
      blames_value (fun depth name _ => blames_secrets schemas depth name) 0
    exact hp.bind fun v => ih _

theorem blames_request (schemas : List Schema) (m : Method) :
    BlamesSecrets (request schemas m : Draw γ Example) :=
  (blames_arguments schemas m.parameters []).bind fun _ => blames_pure _

theorem blames_response (schemas : List Schema) (m : Method) :
    BlamesSecrets (response schemas m : Draw γ (Response × String)) := by
  unfold response
  split
  · exact (blames_secrets schemas 1 _).bind fun _ => blames_pure _
  · dsimp only
    split
    · exact (blames_secrets schemas 1 _).bind fun _ => blames_pure _
    · exact (blames_pure _).bind fun _ => blames_pure _

end Mock

end Lifecycle
