import Lifecycle.Proofs.TestAccount
import Lifecycle.Proofs.ValueShape

/-!
# Bodies of made-up responses

The response of a mock test holds an object, and no `null` inside it, except for one kind: the page
of a method whose items are of no known schema has `null` for its only item. Everywhere else what
cannot be made up is left out, or is an empty object.
-/
namespace Lifecycle

open Json

namespace Mock

/-! ### Bodies of one schema -/

/-- A value as it is made up for a response with the schema of a name. -/
structure MadeFor (schemas : List Schema) (name : String) (v : Value) : Prop where
  null_iff : v = .null ↔ findSchema schemas name = none
  nullFree : v.NullFree
  object : v = .null ∨ ∃ members, v = .object members

variable {schemas : List Schema} {γ : Type} [Generator γ]

/-- Objects for a name: null for an unknown schema, else an object without nulls. -/
theorem yields_madeFor (h : Generator.InRange γ) (name : String) :
    Yields (valueOfSchemaNamed schemas 1 name : Draw γ Value) (MadeFor schemas name) := by
  have hl : requiredDepth < levels + (0 + 1) := by decide
  refine (yields_objectWithin h levels hl name).mono ?_
  intro v hv
  constructor
  · -- the topmost level is never too deep
    have hd : ¬ requiredDepth < 0 + 1 := by decide
    rw [hv.null_iff, IsVoid, or_iff_left hd]
  · exact hv.nullFree
  · cases hv.shape with
    | unknown _ => exact .inl rfl
    | tooDeep _ => exact .inl rfl
    | model _ _ _ => exact .inr ⟨_, rfl⟩

theorem object_settled (members : Keyed Value) :
    ∃ after, settled (.object members) = .object after := by
  unfold settled
  dsimp only
  split
  · split
    · exact ⟨_, rfl⟩
    · exact ⟨_, rfl⟩
  · exact ⟨_, rfl⟩

/-- Setting the state of provisioning keeps what is asked of all members. -/
theorem good_settled {good : Value → Prop} {fits : String → Value → Prop}
    (h : Memberwise good fits) (hstate : fits "provisioningState" (.string "Succeeded"))
    (hproperties : ∀ inner, fits "properties" (.object inner)) (hs : good (.string "Succeeded"))
    {members : Keyed Value} (hm : good (.object members)) : good (settled (.object members)) := by
  unfold settled
  dsimp only
  split
  · rename_i inner hp
    split
    · exact h.put (hproperties _) (h.put hstate hs (h.of_lookup hm hp)) hm
    · exact hm
  · exact hm

theorem nullFree_settled {members : Keyed Value} (h : (Value.object members).NullFree) :
    (settled (.object members)).NullFree :=
  good_settled nullFree_memberwise nofun (fun _ => nofun) (Value.nullFree_string _) h

/-! ### Bodies of all methods -/

/-- What a method may be answered with. -/
structure Answers (schemas : List Schema) (m : Method) (body : Value) : Prop where
  object : ∃ members, body = .object members
  nullFree_iff : body.NullFree ↔
    ∀ item, m.returns = .paged item → (findSchema schemas item).isSome = true
  /-- the page of an item that cannot be made up -/
  unknown : ∀ item, m.returns = .paged item → findSchema schemas item = none →
    body = page m .null
  /-- other bodies that cannot be made up -/
  empty : (∀ item, m.returns ≠ .paged item) →
    (∀ name, m.returns.schema? = some name → findSchema schemas name = none) → body = .object []

/-- A page holds the one item, be it null or not. -/
theorem answers_page {m : Method} {item : String} (hr : m.returns = .paged item) {v : Value}
    (hv : MadeFor schemas item v) : Answers schemas m (page m v) := by
  constructor
  · exact ⟨_, rfl⟩
  · have hpage : (page m v).NullFree ↔ v ≠ .null := by
      unfold page
      rw [Value.nullFree_object]
      simp only [List.mem_singleton, forall_eq, Value.nullFree_array]
      simp [hv.nullFree]
    rw [hpage, ne_eq, hv.null_iff, ← ne_eq, Option.ne_none_iff_isSome, hr]
    simp
  · intro item' hr' hn
    rw [hr] at hr'
    cases hr'
    rw [hv.null_iff.mpr hn]
  · intro hn
    exact absurd hr (hn item)

/-- Any other answer is the value itself, settled for operations that run long. -/
theorem answers_plain {m : Method} (hr : ∀ item, m.returns ≠ .paged item) {v : Value}
    (hnull : (∀ name, m.returns.schema? = some name → findSchema schemas name = none) → v = .null)
    (hfree : v.NullFree) (hobject : v = .null ∨ ∃ members, v = .object members) :
    Answers schemas m (if m.kind == .longRunning then settled (solid v) else solid v) := by
  have hempty : (Value.object []).NullFree := Value.nullFree_object.mpr (by simp)
  have hsolid : ∃ members, solid v = .object members ∧ (Value.object members).NullFree ∧
      (v = .null → members = []) := by
    rcases hobject with rfl | ⟨members, rfl⟩
    · exact ⟨[], rfl, hempty, fun _ => rfl⟩
    · exact ⟨members, rfl, hfree, fun he => nomatch he⟩
  obtain ⟨members, hs, hm, hnil⟩ := hsolid
  have hbody : ∃ after,
      (if m.kind == .longRunning then settled (solid v) else solid v) = .object after ∧
        (Value.object after).NullFree ∧ (v = .null → after = []) := by
    rw [hs]
    split
    · obtain ⟨after, ha⟩ := object_settled members
      refine ⟨after, ha, ha ▸ nullFree_settled hm, ?_⟩
      intro hv
      rw [hnil hv] at ha
      exact (Value.object.inj ha).symm
    · exact ⟨members, rfl, hm, hnil⟩
  obtain ⟨after, ha, hfree, hnil⟩ := hbody
  rw [ha]
  refine ⟨⟨after, rfl⟩, ?_, ?_, ?_⟩
  · exact iff_of_true hfree fun item hp => absurd hp (hr item)
  · exact fun item hp => absurd hp (hr item)
  · exact fun _ hn => congrArg Value.object (hnil (hnull hn))

/-- Whatever the generator, as long as it keeps to its ranges. -/
theorem yields_answers (h : Generator.InRange γ) (m : Method) :
    Yields (response schemas m : Draw γ (Response × String))
      fun a => Answers schemas m a.1.body := by
  unfold response
  split
  · rename_i item hr
    exact (yields_madeFor h item).bind fun v hv => yields_pure (answers_page hr hv)
  · rename_i hr
    have hr : ∀ item, m.returns ≠ .paged item := hr
    dsimp only
    cases hs : m.returns.schema? with
    | none =>
      refine (yields_pure (P := (· = .null)) rfl).bind ?_
      rintro v rfl
      exact yields_pure (answers_plain hr (fun _ => rfl) Value.nullFree_null (.inl rfl))
    | some name =>
      refine (yields_madeFor h name).bind fun v hv => yields_pure ?_
      exact answers_plain hr (fun hn => hv.null_iff.mpr (hn name hs)) hv.nullFree hv.object

/-! ### Tests -/

variable {client : Client} {c : Collection}

/-- A subject that is tested is answered as it has to be. -/
theorem Decides.answers (h : Generator.InRange γ) {subject : Subject} {g g' : γ} {t : Test}
    (hd : Decides client c subject g (.tested t) g') :
    t.Describes c subject ∧ Answers client.schemas subject.tested t.response.body := by
  cases hd with
  | tested requested called answered describes =>
    have hb := yields_answers h subject.tested _ _ (by rw [answered])
    exact ⟨describes, hb⟩

/-- Whatever collections are gone through, in whatever order, each test answers a subject of one of
them with an object. The only `null` in it is the item of a page of no known schema. -/
theorem answers_of_mem_tests (h : Generator.InRange γ) (client : Client) (g : γ)
    (collections : List Collection) {t : Test}
    (ht : t ∈ (testsOfAll client g collections).value.1) :
    ∃ c ∈ collections, ∃ subject ∈ subjects client c, t.Describes c subject ∧
      Answers client.schemas subject.tested t.response.body := by
  obtain ⟨c, hc, subject, hs, _, _, hd⟩ := exists_decides_of_mem_testsOfAll ht
  exact ⟨c, hc, subject, hs, hd.answers h⟩

theorem answers_in_workshop :
    let client := ((Assembly.fresh .standard).client Workshop.lockedTools).value
    let tests := (testsOfAll client (⟨0⟩ : Counter) client.collections).value.1
    Generator.InRange Counter ∧ ∃ t ∈ tests, t.method = "getWithResponse" ∧
      ∃ c ∈ client.collections, ∃ subject ∈ subjects client c, t.Describes c subject ∧
        Answers client.schemas subject.tested t.response.body := by
  intro client tests
  have hm : "getWithResponse" ∈ tests.map (·.method) := by decide +kernel
  obtain ⟨t, ht, hmethod⟩ := List.mem_map.mp hm
  exact ⟨Counter.inRange, t, ht, hmethod,
    answers_of_mem_tests Counter.inRange client ⟨0⟩ client.collections ht⟩

end Mock

namespace Workshop

/-- Tools are listed, but nothing is known of them. -/
def listed : Service where
  name := "Workshop"
  schemas := []
  groups :=
    [⟨"tools", [{ operation "list" .get "/tools" [] "Tool" with paging := some ⟨"value"⟩ }]⟩]

end Workshop

namespace Mock

/-- The page of tools holds `null`. -/
theorem null_on_page :
    let client := ((Assembly.fresh .standard).client Workshop.listed).value
    let tests := (testsOfAll client (⟨0⟩ : Counter) client.collections).value.1
    Generator.InRange Counter ∧ ∃ t ∈ tests, t.method = "list" ∧
      t.response.body = .object [("value", .array [.null])] ∧ ¬ t.response.body.NullFree := by
  intro client tests
  have hbodies : tests.map (fun t => (t.method, t.response.body)) =
      [("list", .object [("value", .array [.null])])] := rfl
  have hmem : ("list", Value.object [("value", .array [.null])]) ∈
      tests.map fun t => (t.method, t.response.body) := by
    rw [hbodies]
    exact List.mem_singleton_self _
  obtain ⟨t, ht, he⟩ := List.mem_map.mp hmem
  obtain ⟨hmethod, hbody⟩ := Prod.mk.inj he
  refine ⟨Counter.inRange, t, ht, hmethod, hbody, ?_⟩
  rw [hbody]
  intro hfree
  have hinner : Value.null.Inside (.object [("value", .array [.null])]) :=
    .tail (.single (.item List.mem_cons_self)) (.member List.mem_cons_self)
  exact hfree .null hinner rfl

end Mock

end Lifecycle
