import Mathlib.Data.List.Basic
import Lifecycle.Category
import Lifecycle.Proofs.UrlWords

/-!
# The category that a URL announces

A URL has one category at most. What begins in a resource group, in a subscription or with a scope,
and then goes on by named parameters, is a resource right under what it begins with if there is one
such parameter, and a nested one if there are more. The literals in between play no part. A further
parameter without a literal in front of it takes a URL in a subscription out of all categories.
-/
namespace Lifecycle

open Text UrlToken

/-! ### At most one category -/

namespace Category

/-- The only category that a URL in a subscription can have. -/
def ofSubscription (url : Url) : Category :=
  if url.isNested then .nestedChild
  else if url.hasResourceGroup then .resourceGroupAsParent
  else .subscriptionAsParent

/-- The only category that a URL in a scope can have. -/
def ofScope (url : Url) : Category :=
  if url.isNested then .scopeNestedChild else .scopeAsParent

theorem fitsSubscription_iff {url : Url} {category : Category} :
    fitsSubscription url category = true ↔
      (∀ p ∈ url.parameters, p.literal ≠ "") ∧ url.hasSubscription = true ∧
        category = ofSubscription url := by
  unfold fitsSubscription ofSubscription
  simp only [Bool.and_eq_true, List.all_eq_true, Bool.not_eq_true', String.isEmpty_eq_false_iff,
    and_assoc]
  apply and_congr_right'
  apply and_congr_right'
  cases category <;> cases url.isNested <;> cases url.hasResourceGroup <;> simp

theorem fitsScope_iff {url : Url} {category : Category} :
    fitsScope url category = true ↔
      (∀ p ∈ url.parameters, p.kind = .scope ∨ p.literal ≠ "") ∧ url.hasScope = true ∧
        url.hasSubscription = false ∧ url.hasResourceGroup = false ∧ category = ofScope url := by
  unfold fitsScope ofScope
  simp only [Bool.and_eq_true, List.all_eq_true, Bool.not_eq_true', Bool.or_eq_true, beq_iff_eq,
    String.isEmpty_eq_false_iff, and_assoc]
  repeat apply and_congr_right'
  cases category <;> cases url.isNested <;> simp

theorem fits_iff {url : Url} {category : Category} :
    category.fits url = true ↔
      fitsSubscription url category = true ∨ fitsScope url category = true := by
  rw [fits, Bool.or_eq_true]

/-- At most one category fits a URL, of whatever shape it is. -/
theorem eq_of_fits {url : Url} {a b : Category} (ha : a.fits url = true) (hb : b.fits url = true) :
    a = b := by
  rw [fits_iff, fitsSubscription_iff, fitsScope_iff] at ha hb
  rcases ha with ⟨-, hs, rfl⟩ | ⟨-, -, hs, -, rfl⟩
  · rcases hb with ⟨-, -, rfl⟩ | ⟨-, -, hn, -⟩
    · rfl
    · rw [hs] at hn
      cases hn
  · rcases hb with ⟨-, hn, -⟩ | ⟨-, -, -, -, rfl⟩
    · rw [hs] at hn
      cases hn
    · rfl

end Category

/-! ### Parameters of words -/

/-- The parameters that words are read as, from the last word to the first. -/
def parametersOf (words : List String) : List ParameterSegment :=
  (segmentsOf none (words.map ofWord).reverse).filterMap Segment.parameter?

theorem Url.parameters_eq (url : Url) : url.parameters = parametersOf url.words := by
  rw [parameters, segments, tokens_eq, parametersOf]

theorem parametersOf_append_literal {word : String} (h : ¬ IsBraced word) (front : List String) :
    parametersOf (front ++ [word]) = parametersOf front := by
  simp [parametersOf, ofWord_literal h, segmentsOf, List.filterMap_cons, Segment.parameter?]

theorem parametersOf_append_named {word : String} (h : ¬ IsBraced word) (front : List String)
    (name : String) :
    parametersOf (front ++ [word, (UrlToken.parameter name).text]) =
      ⟨word, name, .ofLiteral word⟩ :: parametersOf front := by
  simp [parametersOf, ofWord_literal h, segmentsOf, Segment.parameter?]

/-- A parameter right behind another one has no literal. -/
theorem parametersOf_append_bare (front : List String) (name next : String) :
    parametersOf (front ++ [(UrlToken.parameter name).text, (UrlToken.parameter next).text]) =
      ⟨"", next, .ofLiteral ""⟩ :: parametersOf (front ++ [(UrlToken.parameter name).text]) := by
  simp [parametersOf, segmentsOf, Segment.parameter?]

theorem parametersOf_scope (name : String) :
    parametersOf [(UrlToken.parameter name).text] = [⟨"", name, .scope⟩] := by
  simp [parametersOf, segmentsOf, Segment.parameter?]

/-- Some literals, then a parameter behind the literal that names it. -/
structure UrlStep where
  passed : List String
  literal : String
  parameter : String
  passed_unbraced : ∀ word ∈ passed, ¬ IsBraced word
  literal_unbraced : ¬ IsBraced literal
  literal_common : lowercase literal ≠ "resourcegroups".toList ∧
    lowercase literal ≠ "subscriptions".toList

namespace UrlStep

def words (s : UrlStep) : List String :=
  s.passed ++ [s.literal, (UrlToken.parameter s.parameter).text]

def segment (s : UrlStep) : ParameterSegment := ⟨s.literal, s.parameter, .other⟩

theorem ofLiteral_literal (s : UrlStep) : ParameterKind.ofLiteral s.literal = .other := by
  unfold ParameterKind.ofLiteral
  dsimp only
  rw [if_neg (by rw [beq_iff_eq]; exact s.literal_common.1),
    if_neg (by rw [beq_iff_eq]; exact s.literal_common.2)]

theorem parametersOf_append_words (s : UrlStep) (front : List String) :
    parametersOf (front ++ s.words) = s.segment :: parametersOf front := by
  have hp : ∀ passed : List String, (∀ word ∈ passed, ¬ IsBraced word) →
      parametersOf (front ++ passed) = parametersOf front := by
    intro passed
    induction passed using List.reverseRecOn with
    | nil => simp
    | append_singleton start word ih =>
      intro h
      rw [← List.append_assoc, parametersOf_append_literal (h word (by simp))]
      exact ih fun w hw => h w (List.mem_append_left _ hw)
  rw [words, ← List.append_assoc, parametersOf_append_named s.literal_unbraced,
    hp s.passed s.passed_unbraced, ofLiteral_literal]
  rfl

theorem parametersOf_append_steps (steps : List UrlStep) (front : List String) :
    parametersOf (front ++ steps.flatMap words) =
      (steps.map segment).reverse ++ parametersOf front := by
  induction steps generalizing front with
  | nil => simp
  | cons s rest ih =>
    rw [List.flatMap_cons, ← List.append_assoc, ih, parametersOf_append_words]
    simp

end UrlStep

/-! ### What a URL begins with -/

inductive UrlRoot
  | resourceGroup
  | subscription
  | scope
deriving DecidableEq, Repr

namespace UrlRoot

/-- The first words of a URL, which say what it lies in. -/
inductive Opens : UrlRoot → List String → Prop
  | resourceGroup {s g : String} (subscription group : String) :
    lowercase s = "subscriptions".toList → lowercase g = "resourcegroups".toList →
      Opens .resourceGroup
        [s, (UrlToken.parameter subscription).text, g, (UrlToken.parameter group).text]
  | subscription {s : String} (subscription : String) :
    lowercase s = "subscriptions".toList →
      Opens .subscription [s, (UrlToken.parameter subscription).text]
  | scope (scope : String) : Opens .scope [(UrlToken.parameter scope).text]

/-- The category right under what a URL begins with. -/
def direct : UrlRoot → Category
  | .resourceGroup => .resourceGroupAsParent
  | .subscription => .subscriptionAsParent
  | .scope => .scopeAsParent

def nested : UrlRoot → Category
  | .scope => .scopeNestedChild
  | _ => .nestedChild

/-- The parameters that the first words are read as. -/
inductive Parameters : UrlRoot → List ParameterSegment → Prop
  | resourceGroup {s g : String} (subscription group : String) : s ≠ "" → g ≠ "" →
    Parameters .resourceGroup [⟨g, group, .resourceGroup⟩, ⟨s, subscription, .subscription⟩]
  | subscription {s : String} (subscription : String) : s ≠ "" →
    Parameters .subscription [⟨s, subscription, .subscription⟩]
  | scope (scope : String) : Parameters .scope [⟨"", scope, .scope⟩]

theorem not_isBraced_of_lowercase {word : String} {c : Char} {rest : List Char}
    (h : lowercase word = c :: rest) (hc : c ≠ '\x7b') : ¬ IsBraced word := by
  rintro ⟨name, rfl⟩
  rw [lowercase, toList_text_parameter, List.flatMap_cons] at h
  have hl : lower '\x7b' = ['\x7b'] := by decide
  rw [hl, List.singleton_append, List.cons.injEq] at h
  exact hc h.1.symm

theorem ne_empty_of_lowercase {word : String} {c : Char} {rest : List Char}
    (h : lowercase word = c :: rest) : word ≠ "" := by
  rintro rfl
  cases h

theorem ofLiteral_subscriptions {s : String} (h : lowercase s = "subscriptions".toList) :
    ParameterKind.ofLiteral s = .subscription := by
  rw [ParameterKind.ofLiteral, h]
  decide

theorem ofLiteral_resourceGroups {g : String} (h : lowercase g = "resourcegroups".toList) :
    ParameterKind.ofLiteral g = .resourceGroup := by
  rw [ParameterKind.ofLiteral, h]
  decide

/-- The parameters of a root, in whatever letter case its literals are written. -/
theorem Opens.parameters {root : UrlRoot} {front : List String} (h : root.Opens front) :
    root.Parameters (parametersOf front) := by
  have subscribed {s : String} (hs : lowercase s = "subscriptions".toList) (name : String) :
      parametersOf [s, (UrlToken.parameter name).text] = [⟨s, name, .subscription⟩] := by
    have hp := parametersOf_append_named (not_isBraced_of_lowercase hs (by decide)) [] name
    rw [ofLiteral_subscriptions hs] at hp
    exact hp
  cases h with
  | @resourceGroup s g subscription group hs hg =>
    have hp := parametersOf_append_named (not_isBraced_of_lowercase hg (by decide))
      [s, (UrlToken.parameter subscription).text] group
    rw [ofLiteral_resourceGroups hg, subscribed hs] at hp
    have hr := Parameters.resourceGroup subscription group (ne_empty_of_lowercase hs)
      (ne_empty_of_lowercase hg)
    exact hp ▸ hr
  | @subscription s subscription hs =>
    rw [subscribed hs]
    exact .subscription subscription (ne_empty_of_lowercase hs)
  | scope scope =>
    rw [parametersOf_scope]
    exact .scope scope

end UrlRoot

/-! ### Categories by shape -/

namespace Url

variable {url : Url} {steps others rest : List ParameterSegment}

/-- Parameters of no special kind come first, then the first special one. -/
theorem nestLevel_eq (h : url.parameters = others ++ rest) (ho : ∀ p ∈ others, p.kind = .other)
    (hr : ∀ p ∈ rest.head?, p.kind ≠ .other) : url.nestLevel = others.length := by
  have ht : rest.takeWhile (·.kind == .other) = [] := by
    cases rest with
    | nil => rfl
    | cons p more =>
      have hp : (p.kind == .other) = false := beq_eq_false_iff_ne.mpr (hr p rfl)
      rw [List.takeWhile_cons, hp]
      rfl
  unfold nestLevel
  rw [h, List.takeWhile_append_of_pos fun p hp => beq_iff_eq.mpr (ho p hp), ht, List.append_nil]

theorem hasKind_eq (h : url.parameters = others ++ rest) (ho : ∀ p ∈ others, p.kind = .other)
    {kind : ParameterKind} (hk : kind ≠ .other) : url.hasKind kind = rest.any (·.kind == kind) := by
  have hn : others.any (·.kind == kind) = false := by
    rw [List.any_eq_false]
    intro p hp
    rw [ho p hp, beq_iff_eq]
    exact hk.symm
  rw [hasKind, h, List.any_append, hn, Bool.false_or]

theorem hasResourceGroup_eq (h : 1 ≤ url.nestLevel) :
    url.hasResourceGroup = url.hasKind .resourceGroup := by
  simp [hasResourceGroup, h]

theorem hasSubscription_eq (h : 1 ≤ url.nestLevel) :
    url.hasSubscription = url.hasKind .subscription := by
  simp [hasSubscription, h]

theorem hasScope_eq (h : 1 ≤ url.nestLevel) : url.hasScope = url.hasKind .scope := by
  simp [hasScope, h]

end Url

namespace UrlRoot

/-- The category of a URL with so many steps behind what it begins with. -/
def category (root : UrlRoot) (steps : Nat) : Category :=
  if 1 < steps then root.nested else root.direct

theorem direct_ne_nested (root : UrlRoot) : root.direct ≠ root.nested := by
  cases root <;> decide

/-- A URL whose parameters are those of what it begins with and then more, all of them named and of
no special kind, has the category that their number announces. -/
theorem fits_category {root : UrlRoot} {url : Url} {others rest : List ParameterSegment}
    (hr : root.Parameters rest) (h : url.parameters = others ++ rest)
    (ho : ∀ p ∈ others, p.kind = .other ∧ p.literal ≠ "") (hs : others ≠ []) :
    (root.category others.length).fits url = true := by
  have hk : ∀ p ∈ others, p.kind = .other := fun p hp => (ho p hp).1
  have hlevel : url.nestLevel = others.length := by
    apply Url.nestLevel_eq h hk
    cases hr <;> simp
  have hpos : 1 ≤ url.nestLevel := by
    rw [hlevel]
    exact List.length_pos_iff.mpr hs
  have hgroup := (Url.hasResourceGroup_eq hpos).trans (Url.hasKind_eq h hk (by decide))
  have hsubscription := (Url.hasSubscription_eq hpos).trans (Url.hasKind_eq h hk (by decide))
  have hscope := (Url.hasScope_eq hpos).trans (Url.hasKind_eq h hk (by decide))
  have hnested : url.isNested = decide (1 < others.length) := by rw [Url.isNested, hlevel]
  rw [Category.fits_iff, Category.fitsSubscription_iff, Category.fitsScope_iff, h,
    List.forall_mem_append, List.forall_mem_append]
  cases hr with
  | resourceGroup subscription group hs hg =>
    left
    refine ⟨⟨fun p hp => (ho p hp).2, by simp [hs, hg]⟩, by rw [hsubscription]; rfl, ?_⟩
    rw [category, Category.ofSubscription, hnested, hgroup]
    simp [direct, nested]
  | subscription subscription hs =>
    left
    refine ⟨⟨fun p hp => (ho p hp).2, by simp [hs]⟩, by rw [hsubscription]; rfl, ?_⟩
    rw [category, Category.ofSubscription, hnested, hgroup]
    simp [direct, nested]
  | scope scope =>
    right
    refine ⟨⟨fun p hp => .inr (ho p hp).2, by simp⟩, by rw [hscope]; rfl,
      by rw [hsubscription]; rfl, by rw [hgroup]; rfl, ?_⟩
    rw [category, Category.ofScope, hnested]
    simp [direct, nested]

end UrlRoot

namespace Url

variable {url : Url} {root : UrlRoot} {front : List String}

/-- The steps of a URL come out as named parameters of no special kind. -/
theorem parameters_of_steps {steps : List UrlStep}
    (hw : url.words = front ++ steps.flatMap UrlStep.words) :
    url.parameters = (steps.map UrlStep.segment).reverse ++ parametersOf front := by
  rw [parameters_eq, hw, UrlStep.parametersOf_append_steps]

/-- The category of a root fits every number of steps, however long their words. -/
theorem fits_category_of_steps (h : root.Opens front) {steps : List UrlStep} (hs : steps ≠ [])
    (hw : url.words = front ++ steps.flatMap UrlStep.words) :
    (root.category steps.length).fits url = true := by
  have hp := parameters_of_steps hw
  have hc := UrlRoot.fits_category h.parameters hp ?_ (by simpa using hs)
  · rwa [List.length_reverse, List.length_map] at hc
  · intro p hp
    obtain ⟨s, hs, rfl⟩ := List.mem_map.mp (List.mem_reverse.mp hp)
    have hm : s.literal ∈ url.words := by
      rw [hw, List.mem_append, List.mem_flatMap]
      exact .inr ⟨s, hs, by simp [UrlStep.words]⟩
    exact ⟨rfl, ne_empty_of_mem_words hm⟩

/-- In a subscription every parameter needs a literal, and there is no scope. -/
theorem not_fits_of_bare (h : root.Opens front) (hr : root ≠ .scope) {before after : List UrlStep}
    {step : UrlStep} {bare : String}
    (hw : url.words = front ++ before.flatMap UrlStep.words ++ step.words ++
      (UrlToken.parameter bare).text :: after.flatMap UrlStep.words) (category : Category) :
    category.fits url = false := by
  have hk : ParameterKind.ofLiteral "" = .other := by decide
  -- the words up to the bare parameter, cut in front of the two parameters next to each other
  let start := front ++ before.flatMap UrlStep.words ++ step.passed ++ [step.literal]
  have hw' : url.words = start ++
      [(UrlToken.parameter step.parameter).text, (UrlToken.parameter bare).text] ++
        after.flatMap UrlStep.words := by
    rw [hw]
    simp [start, UrlStep.words]
  have hs : start ++ [(UrlToken.parameter step.parameter).text] =
      front ++ before.flatMap UrlStep.words ++ step.words := by
    simp [start, UrlStep.words]
  have hp : url.parameters = (after.map UrlStep.segment).reverse ++ ⟨"", bare, .other⟩ ::
      step.segment :: (before.map UrlStep.segment).reverse ++ parametersOf front := by
    rw [parameters_eq, hw', UrlStep.parametersOf_append_steps, parametersOf_append_bare, hk, hs,
      UrlStep.parametersOf_append_words, UrlStep.parametersOf_append_steps]
    simp
  rw [Bool.eq_false_iff]
  intro hf
  rw [Category.fits_iff, Category.fitsSubscription_iff, Category.fitsScope_iff] at hf
  rcases hf with ⟨hn, -⟩ | ⟨-, hscope, -⟩
  · exact hn ⟨"", bare, .other⟩ (by rw [hp]; simp) rfl
  · have hn : url.hasKind .scope = false := by
      have hf : (parametersOf front).any (·.kind == .scope) = false := by
        have hf := h.parameters
        generalize parametersOf front = rest at hf
        cases hf with
        | resourceGroup => rfl
        | subscription => rfl
        | scope => exact absurd rfl hr
      rw [hasKind, hp]
      simp [hf, UrlStep.segment]
    rw [hasScope, hn, Bool.and_false] at hscope
    cases hscope

end Url

/-- A URL has one category at most. Steps from a resource group, a subscription or a scope lead to
the category of a direct child if there is one step, to that of a nested one if there are more, and
to none if a parameter without a literal comes in between. -/
theorem Category.fits_of_shape (url : Url) :
    (∀ a b : Category, a.fits url = true → b.fits url = true → a = b) ∧
    (∀ (root : UrlRoot) (front : List String) (steps : List UrlStep),
      root.Opens front → 1 ≤ steps.length → url.words = front ++ steps.flatMap UrlStep.words →
        (root.direct.fits url = true ↔ steps.length = 1) ∧
        (root.nested.fits url = true ↔ 2 ≤ steps.length)) ∧
    ∀ (root : UrlRoot) (front : List String) (before after : List UrlStep) (step : UrlStep)
      (bare : String),
      root.Opens front → root ≠ .scope →
        url.words = front ++ before.flatMap UrlStep.words ++ step.words ++
          (UrlToken.parameter bare).text :: after.flatMap UrlStep.words →
        ∀ category : Category, category.fits url = false := by
  refine ⟨fun _ _ => eq_of_fits, ?_, ?_⟩
  · intro root front steps ho hs hw
    have hc := Url.fits_category_of_steps ho (List.length_pos_iff.mp hs) hw
    have hiff (category : Category) :
        category.fits url = true ↔ category = root.category steps.length :=
      ⟨fun h => eq_of_fits h hc, fun h => h ▸ hc⟩
    rw [hiff, hiff, UrlRoot.category]
    by_cases hn : 1 < steps.length
    · rw [if_pos hn]
      exact ⟨iff_of_false root.direct_ne_nested (by omega), iff_of_true rfl hn⟩
    · rw [if_neg hn]
      exact ⟨iff_of_true rfl (by omega), iff_of_false root.direct_ne_nested.symm hn⟩
  · intro root front before after step bare ho hr hw category
    exact Url.not_fits_of_bare ho hr hw category

instance (word : String) : Decidable (IsBraced word) :=
  decidable_of_iff _ (isBraced_iff word).symm

/-- `providers/Shop/boxes/{b}` -/
def UrlStep.box : UrlStep :=
  ⟨["providers", "Shop"], "boxes", "b", by decide +kernel, by decide +kernel, by decide +kernel⟩

/-- `tools/{t}` -/
def UrlStep.tool : UrlStep :=
  ⟨[], "tools", "t", by decide +kernel, by decide +kernel, by decide +kernel⟩

/-- A tool in a box in a resource group is nested, and none of its versions has a category. -/
theorem Category.fits_boxed_tool :
    let front := ["Subscriptions", "\x7bs\x7d", "resourceGROUPS", "\x7bg\x7d"]
    let tool : Url := ⟨"/Subscriptions/\x7bs\x7d/ resourceGROUPS/\x7bg\x7d" ++
      "//providers/Shop/boxes/\x7bb\x7d/tools/\x7bt\x7d"⟩
    let version : Url := ⟨"/Subscriptions/\x7bs\x7d/ resourceGROUPS/\x7bg\x7d" ++
      "//providers/Shop/boxes/\x7bb\x7d/\x7bv\x7d/tools/\x7bt\x7d"⟩
    UrlRoot.Opens .resourceGroup front ∧
      tool.words = front ++ [UrlStep.box, .tool].flatMap UrlStep.words ∧
      version.words = front ++ [].flatMap UrlStep.words ++ UrlStep.box.words ++
        (UrlToken.parameter "v").text :: [UrlStep.tool].flatMap UrlStep.words ∧
      (Category.nestedChild.fits tool = true ↔ 2 ≤ [UrlStep.box, UrlStep.tool].length) ∧
      ∀ category : Category, category.fits version = false := by
  intro front tool version
  have ho : UrlRoot.Opens .resourceGroup front := .resourceGroup "s" "g" (by decide) (by decide)
  have ht : tool.words = front ++ [UrlStep.box, .tool].flatMap UrlStep.words := by decide +kernel
  have hv : version.words = front ++ [].flatMap UrlStep.words ++ UrlStep.box.words ++
      (UrlToken.parameter "v").text :: [UrlStep.tool].flatMap UrlStep.words := by decide +kernel
  exact ⟨ho, ht, hv, ((Category.fits_of_shape tool).2.1 .resourceGroup front [.box, .tool] ho
    (by decide) ht).2, (Category.fits_of_shape version).2.2 .resourceGroup front [] [.tool] .box "v"
      ho (by decide) hv⟩

end Lifecycle
