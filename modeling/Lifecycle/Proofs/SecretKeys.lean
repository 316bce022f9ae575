import Lifecycle.Proofs.ResponseBody

/-!
# Secret keys in made-up responses

No key of an object that is made up from schemas without maps suggests a secret, however deep the
object lies: every name on a path is looked at before anything is written there. The name under
which a page holds its items is not looked at, so the body of a paged method may show such a key, at
its top and nowhere else. A subject without a test is named in a notice, with the key it is left out
for.
-/
namespace Lifecycle

open Json

namespace Json.Value

/-- A key stands in an object, the value itself or one inside it, at whatever depth. -/
inductive HasKey (key : String) : Value → Prop
  | own {members : Keyed Value} : key ∈ Keyed.keys members → HasKey key (.object members)
  | inner {v w : Value} : w.Child v → HasKey key w → HasKey key v

theorem hasKey_of_member? {key : String} {v : Value} (h : (v.member? key).isSome = true) :
    v.HasKey key := by
  cases v with
  | object members =>
    obtain ⟨w, hw⟩ := Option.isSome_iff_exists.mp h
    obtain ⟨front, back, rfl, -⟩ := List.lookup_eq_some_iff.mp hw
    exact .own (List.mem_map.mpr ⟨(key, w), by simp, rfl⟩)
  | _ => cases h

end Json.Value

/-- Whether a map is part of a type, outside the schemas it refers to. -/
def ValueType.holdsMap : ValueType → Bool
  | .map _ => true
  | .list item => item.holdsMap
  | _ => false

namespace Mock

/-- No key suggests a secret, at whatever depth. -/
def Harmless (v : Value) : Prop := ∀ key, v.HasKey key → suggestsSecret key = false

theorem harmless_object {members : Keyed Value} :
    Harmless (.object members) ↔ ∀ p ∈ members, suggestsSecret p.1 = false ∧ Harmless p.2 := by
  constructor
  · intro h p hp
    refine ⟨h p.1 (.own (List.mem_map_of_mem hp)), ?_⟩
    intro key hk
    exact h key (.inner (.member hp) hk)
  · intro h key hk
    cases hk with
    | own hkey =>
      obtain ⟨p, hp, rfl⟩ := List.mem_map.mp hkey
      exact (h p hp).1
    | inner hchild hk =>
      cases hchild with
      | member hp => exact (h _ hp).2 key hk

theorem harmless_array {items : List Value} :
    Harmless (.array items) ↔ ∀ w ∈ items, Harmless w := by
  constructor
  · intro h w hw key hk
    exact h key (.inner (.item hw) hk)
  · intro h key hk
    cases hk with
    | inner hchild hk =>
      cases hchild with
      | item hw => exact h _ hw key hk

/-- A leaf has no keys. -/
theorem harmless_leaf {v : Value} (h : v.IsLeaf) : Harmless v := by
  intro key hk
  cases hk with
  | own _ => cases h
  | inner hchild _ =>
    cases hchild with
    | item _ => cases h
    | member _ => cases h

theorem harmless_memberwise : Memberwise Harmless fun key _ => suggestsSecret key = false :=
  fun _ => harmless_object

/-- What is written after a look at the path is harmless. -/
theorem harmless_of_insertChecked {path : List String} {v : Value} (hv : Harmless v)
    {members after : Keyed Value} (hm : Harmless (.object members))
    (h : insertChecked path v members = .ok after) : Harmless (.object after) := by
  unfold insertChecked at h
  split at h
  · cases h
  · rename_i hn
    obtain rfl := Except.ok.inj h
    rw [List.find?_eq_none] at hn
    have hpath : ∀ key ∈ path, suggestsSecret key = false :=
      fun key hk => Bool.eq_false_iff.mpr (hn key hk)
    exact harmless_memberwise.insertAt (fun key hk _ => hpath key hk) hpath hv hm

/-! ### Values of types without maps -/

section

variable {schemas : List Schema} {γ : Type} [Generator γ]

/-- By induction on the type; maps are left out since their keys are drawn. -/
theorem yields_harmless_value {model : Nat → String → Draw γ Value}
    (hm : ∀ depth name, Yields (model depth name) Harmless) {type : ValueType}
    (ht : type.holdsMap = false) (depth : Nat) : Yields (value model depth type) Harmless := by
  induction type generalizing depth with
  | list item ih =>
    unfold value
    split
    · refine (yields_any _).bind fun n _ => ?_
      refine (yields_items (ih ht (depth + 1)) (n + 1)).bind fun items hall => yields_pure ?_
      exact harmless_array.mpr fun w hw => (hall.2 w hw).2
    · exact yields_pure (harmless_array.mpr (by simp))
  | map item ih => cases ht
  | model name => exact hm (depth + 1) name
  | _ => exact (yields_leaf model depth rfl).mono fun _ => harmless_leaf

theorem yields_harmless_object (hs : ∀ s ∈ schemas, ∀ p ∈ s.properties, p.type.holdsMap = false)
    (levels depth : Nat) (name : String) :
    Yields (objectWithin schemas levels depth name : Draw γ Value) Harmless := by
  induction levels generalizing depth name with
  | zero => exact yields_pure (harmless_leaf .null)
  | succ levels ih =>
    rw [objectWithin]
    cases hf : findSchema schemas name with
    | none => exact yields_pure (harmless_leaf .null)
    | some schema =>
      dsimp only [object]
      split
      · exact yields_pure (harmless_leaf .null)
      · have hmem : schema ∈ schemas := List.mem_of_find?_eq_some hf
        have hv : ∀ p ∈ mergedProperties schemas schema,
            Yields (value (objectWithin schemas levels) depth p.type : Draw γ Value) Harmless := by
          intro p hp
          obtain ⟨s, hsmem, hps⟩ := exists_schema_of_mem_mergedProperties hmem hp
          exact yields_harmless_value ih (hs s hsmem p hps) depth
        have hempty : Harmless (.object []) := harmless_object.mpr (by simp)
        have hmembers : Yields (members (value (objectWithin schemas levels) depth) depth
            (mergedProperties schemas schema) [] : Draw γ (Keyed Value))
            fun after => Harmless (.object after) := by
          refine yields_members_kept depth hv ?_ hempty
          intro p _ _ v before after hv _ hbefore ha
          exact harmless_of_insertChecked hv hbefore ha
        exact hmembers.bind fun after ha => yields_pure ha

/-! ### Bodies of responses -/

/-- Which keys of the body of a response may suggest a secret. -/
structure Guarded (m : Method) (body : Value) : Prop where
  /-- the key of the items of a page is the only one -/
  only : ∀ key, body.HasKey key → suggestsSecret key = true →
    (∃ item, m.returns = .paged item) ∧ key = itemKey m
  inside : ∀ w : Value, w.Child body → Harmless w
  harmless_iff : Harmless body ↔
    ∀ item, m.returns = .paged item → suggestsSecret (itemKey m) = false

/-- The name of the items is the one key of a page that no check has seen. -/
theorem guarded_page {m : Method} {item : String} (hr : m.returns = .paged item) {v : Value}
    (hv : Harmless v) : Guarded m (page m v) := by
  have hpage : page m v = .object [(itemKey m, .array [v])] := rfl
  have hitems : Harmless (.array [v]) := harmless_array.mpr (by simpa using hv)
  have hinside : ∀ w : Value, w.Child (page m v) → Harmless w := by
    intro w hw
    rw [hpage] at hw
    cases hw with
    | member hmem =>
      obtain ⟨_, rfl⟩ := Prod.mk.inj (List.mem_singleton.mp hmem)
      exact hitems
  constructor
  · intro key hk hs
    refine ⟨⟨item, hr⟩, ?_⟩
    rw [hpage] at hk
    cases hk with
    | own hkey => exact List.mem_singleton.mp hkey
    | inner hchild hk =>
      rw [hinside _ hchild key hk] at hs
      cases hs
  · exact hinside
  · rw [hpage, harmless_object, hr]
    simp [hitems]

theorem guarded_of_harmless {m : Method} (hr : ∀ item, m.returns ≠ .paged item) {body : Value}
    (h : Harmless body) : Guarded m body := by
  constructor
  · intro key hk hs
    rw [h key hk] at hs
    cases hs
  · intro w hw key hk
    exact h key (.inner hw hk)
  · exact iff_of_true h fun item hp => absurd hp (hr item)

theorem harmless_solid {v : Value} (h : Harmless v) : Harmless (solid v) := by
  unfold solid
  split
  · exact harmless_object.mpr (by simp)
  · exact h

theorem harmless_settled {v : Value} (h : Harmless v) : Harmless (settled v) := by
  cases v with
  | object members =>
    have hstate : suggestsSecret "provisioningState" = false := by decide
    have hproperties : suggestsSecret "properties" = false := by decide
    have hdone (s : String) : Harmless (.string s) := harmless_leaf (.string s)
    exact good_settled harmless_memberwise hstate (fun _ => hproperties) (hdone _) h
  | null => exact h
  | bool b => exact h
  | number n => exact h
  | string s => exact h
  | array items => exact h

theorem yields_guarded (hs : ∀ s ∈ schemas, ∀ p ∈ s.properties, p.type.holdsMap = false)
    (m : Method) : Yields (response schemas m : Draw γ (Response × String))
      fun a => Guarded m a.1.body := by
  unfold response
  split
  · rename_i item hr
    exact (yields_harmless_object hs levels 1 item).bind fun v hv =>
      yields_pure (guarded_page hr hv)
  · rename_i hr
    have hr : ∀ item, m.returns ≠ .paged item := hr
    have hplain {v : Value} (hv : Harmless v) :
        Guarded m (if m.kind == .longRunning then settled (solid v) else solid v) := by
      apply guarded_of_harmless hr
      split
      · exact harmless_settled (harmless_solid hv)
      · exact harmless_solid hv
    dsimp only
    cases m.returns.schema? with
    | none =>
      refine (yields_pure (P := Harmless) (harmless_leaf .null)).bind fun v hv => ?_
      exact yields_pure (hplain hv)
    | some name =>
      exact (yields_harmless_object hs levels 1 name).bind fun v hv => yields_pure (hplain hv)

/-! ### Tests -/

variable {client : Client} {c : Collection}

/-- What may come of a subject: a test with a guarded response, or a notice that names the subject
and a key that suggests a secret. -/
inductive Vetted (c : Collection) (subject : Subject) : Outcome → Prop
  | tested {t : Test} (describes : t.Describes c subject)
      (guarded : Guarded subject.tested t.response.body) : Vetted c subject (.tested t)
  | skipped {key : String} (offending : suggestsSecret key = true) :
      Vetted c subject (.skipped (subject.skipped ⟨key⟩))

theorem Decides.vetted (hs : ∀ s ∈ client.schemas, ∀ p ∈ s.properties, p.type.holdsMap = false)
    {subject : Subject} {outcome : Outcome} {g g' : γ}
    (h : Decides client c subject g outcome g') : Vetted c subject outcome := by
  cases h with
  | tested requested called answered describes =>
    exact .tested describes (yields_guarded hs subject.tested _ _ (by rw [answered]))
  | requestRefused requested offending => exact .skipped offending
  | responseRefused requested answered offending => exact .skipped offending

theorem Accounts.vetted (hs : ∀ s ∈ client.schemas, ∀ p ∈ s.properties, p.type.holdsMap = false)
    {subjects : List Subject} {outcomes : List Outcome} {g g' : γ}
    (h : Accounts client c g subjects outcomes g') : List.Forall₂ (Vetted c) subjects outcomes := by
  induction h with
  | done => exact .nil
  | next first _ ih => exact .cons (first.vetted hs) ih

/-- If no property is a map, the only key in the response of a test that may suggest a secret is
that of the items of a page. The subjects that no test is made of are named in notices, each with a
key that suggests a secret. -/
theorem vetted_outcomes
    (hs : ∀ s ∈ client.schemas, ∀ p ∈ s.properties, p.type.holdsMap = false) (c : Collection)
    (g : γ) :
    ∃ outcomes, List.Forall₂ (Vetted c) (subjects client c) outcomes ∧
      (testsOf client c g (subjects client c)).value.1 = outcomes.filterMap Outcome.test? ∧
      (testsOf client c g (subjects client c)).warnings.filter (·.skipsTest) =
        outcomes.filterMap Outcome.notice? := by
  obtain ⟨outcomes, ha, ht, hn⟩ :=
    accounts_testsOf (c := c) (fun _ h => callable_of_mem_subjects h) g
  refine ⟨outcomes, ha.vetted hs, ht, ?_⟩
  rw [filter_skipsTest_warnings, hn]

end

end Mock

namespace Workshop

/-- Tools are listed under a name that suggests a secret, and unlocked with a code. -/
def keyring : Service where
  name := "Workshop"
  schemas :=
    [identified "ToolInner",
      ⟨"Lock", none, [], [⟨"code", "accessCode", .string, true, false, false, none⟩]⟩]
  groups :=
    [⟨"tools",
      [{ operation "list" .get "/tools" [] "ToolInner" with paging := some ⟨"keys"⟩ },
        operation "unlock" .post (toolUrl ++ "/unlock") [body "Lock"] "ToolInner"]⟩]

end Workshop

namespace Mock

theorem vetted_in_workshop :
    let client := ((Assembly.fresh .standard).client Workshop.keyring).value
    let g : Counter := ⟨0⟩
    (∀ s ∈ client.schemas, ∀ p ∈ s.properties, p.type.holdsMap = false) ∧
      ∀ c ∈ client.collections, ∃ outcomes,
        List.Forall₂ (Vetted c) (subjects client c) outcomes ∧
        (testsOf client c g (subjects client c)).value.1 = outcomes.filterMap Outcome.test? ∧
        (testsOf client c g (subjects client c)).warnings.filter (·.skipsTest) =
          outcomes.filterMap Outcome.notice? := by
  intro client g
  have hs : ∀ s ∈ client.schemas, ∀ p ∈ s.properties, p.type.holdsMap = false := by
    decide +kernel
  exact ⟨hs, fun c _ => vetted_outcomes hs c g⟩

/-- The page of tools shows the key, and nothing is said of it. -/
theorem key_on_page :
    let client := ((Assembly.fresh .standard).client Workshop.keyring).value
    let g : Counter := ⟨0⟩
    Generator.InRange Counter ∧
      (∀ s ∈ client.schemas, ∀ p ∈ s.properties, p.type.holdsMap = false) ∧
      ∃ c ∈ client.collections,
        (testsOf client c g (subjects client c)).warnings.filter (·.skipsTest) =
          [.methodTestSkipped "unlockWithResponse" "accessCode"] ∧
        ∃ t ∈ (testsOf client c g (subjects client c)).value.1,
          t.method = "list" ∧ t.response.body.HasKey "keys" ∧ suggestsSecret "keys" = true := by
  intro client g
  have hs : ∀ s ∈ client.schemas, ∀ p ∈ s.properties, p.type.holdsMap = false := by
    decide +kernel
  have hfound : (client.collections.any fun c =>
      (testsOf client c g (subjects client c)).warnings.filter (·.skipsTest) ==
          [.methodTestSkipped "unlockWithResponse" "accessCode"] &&
        (testsOf client c g (subjects client c)).value.1.any fun t =>
          t.method == "list" && (t.response.body.member? "keys").isSome) = true := by
    decide +kernel
  simp only [List.any_eq_true, Bool.and_eq_true, beq_iff_eq] at hfound
  obtain ⟨c, hc, hwarned, t, ht, hmethod, hmember⟩ := hfound
  refine ⟨Counter.inRange, hs, c, hc, hwarned, t, ht, hmethod, ?_, by decide⟩
  exact Value.hasKey_of_member? hmember

end Mock

end Lifecycle
