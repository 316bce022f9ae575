import Lifecycle.Proofs.ValueShape

/-!
# What can be told of a value before it is drawn

Draws give lengths, keys and choices, so that two generators are out of step after the first list.
Whether a value is `null`, and which key it is refused for, does not hang on them: `Forecast` follows
types and schemas as the draws do, going through the items of a list once, as there is always one.
-/
namespace Lifecycle.Mock

open Json

/-- Whether a value is `null`, or what it is refused for. -/
abbrev Forecast := Except Refusal Bool

/-- The forecast of a type at a depth; `model` gives those of schemas by name. -/
def forecastValue (model : Nat → String → Forecast) : Nat → ValueType → Forecast
  | _, .binary => .ok true
  | _, .enum values => .ok values.isEmpty
  | depth, .list item =>
    if depth ≤ optionalDepth then do
      let _ ← forecastValue model (depth + 1) item
      pure false
    else pure false
  | depth, .map item =>
    if depth ≤ optionalDepth then do
      let _ ← forecastValue model (depth + 1) item
      pure false
    else pure false
  | depth, .model name => model (depth + 1) name
  | _, _ => .ok false

/-- Whether a property is left out at a depth by all generators that draw above `omission`. -/
def isLeftOut (depth : Nat) (p : Property) : Bool :=
  p.constant || (!p.required && decide (optionalDepth < depth))

/-- Refuse a path with a name that suggests a secret. -/
def checkPath (path : List String) : Except Refusal Unit :=
  match path.find? suggestsSecret with
  | some key => .error ⟨key⟩
  | none => .ok ()

/-- What some properties are refused for, the first that is refused being named. -/
def forecastMembers (forecastOf : ValueType → Forecast) (depth : Nat) :
    List Property → Except Refusal Unit
  | [] => .ok ()
  | p :: rest =>
    if isLeftOut depth p then forecastMembers forecastOf depth rest
    else do
      let void ← forecastOf p.type
      if void then forecastMembers forecastOf depth rest
      else do
        checkPath p.path
        forecastMembers forecastOf depth rest

def forecastObject (schemas : List Schema) (named : Nat → String → Forecast) (depth : Nat)
    (schema : Schema) : Forecast :=
  if requiredDepth < depth then .ok true
  else do
    forecastMembers (forecastValue named depth) depth (mergedProperties schemas schema)
    pure false

/-- The forecast of a schema of a name, with so many levels of schemas in it. -/
def forecastWithin (schemas : List Schema) : Nat → Nat → String → Forecast
  | 0, _, _ => .ok true
  | levels + 1, depth, name =>
    match findSchema schemas name with
    | some schema => forecastObject schemas (forecastWithin schemas levels) depth schema
    | none => .ok true

/-- No chance is drawn that an optional property is left out for. -/
def FillsOptional (γ : Type) [Generator γ] : Prop :=
  ∀ g : γ, omission < (Generator.unit g).1

section

variable {γ : Type} [Generator γ]

/-! ### Lists and maps -/

omit [Generator γ] in
theorem granted_items {item : Draw γ Value} (hi : Granted item) (n : Nat) :
    Granted (items item n) := by
  induction n with
  | zero => exact granted_pure []
  | succ n ih =>
    refine hi.bind (yields_any _) fun v _ => ?_
    refine ih.bind (yields_any _) fun rest _ => ?_
    exact granted_pure _

theorem granted_entries {item : Draw γ Value} (hi : Granted item) (n : Nat)
    (members : Keyed Value) : Granted (entries item n members) := by
  induction n generalizing members with
  | zero => exact granted_pure members
  | succ n ih =>
    refine hi.bind (yields_any _) fun v _ => ?_
    cases v.isNull with
    | true => exact ih members
    | false => exact granted_text.bind (yields_any _) fun key _ => ih (Keyed.put key v members)

omit [Generator γ] in
/-- A list is refused with its items. -/
theorem foretold_list {item : Draw γ Value} {forecast : Forecast}
    (hi : Foretold item Value.isNull forecast) (n : Nat) :
    Foretold (do pure (Value.array (← items item (n + 1))) : Draw γ Value) Value.isNull
      (do let _ ← forecast; pure false) := by
  cases forecast with
  | error r =>
    -- there is a first item, and nothing is drawn after it
    exact Foretold.bind_error (Foretold.bind_error hi _ : Foretold _ id _) _
  | ok void =>
    refine (granted_items hi.granted (n + 1)).bind (yields_any _) fun items _ => ?_
    exact foretold_pure (Value.array items)

/-- A map is refused with its values. -/
theorem foretold_map {item : Draw γ Value} {forecast : Forecast}
    (hi : Foretold item Value.isNull forecast) (n : Nat) :
    Foretold (do pure (Value.object (← entries item (n + 1) [])) : Draw γ Value) Value.isNull
      (do let _ ← forecast; pure false) := by
  cases forecast with
  | error r => exact Foretold.bind_error (Foretold.bind_error hi _ : Foretold _ id _) _
  | ok void =>
    refine (granted_entries hi.granted (n + 1) []).bind (yields_any _) fun members _ => ?_
    exact foretold_pure (Value.object members)

/-! ### Objects -/

/-- With no chance that low, the depth alone decides on optional properties. -/
theorem foretold_leavesOut (hf : FillsOptional γ) (depth : Nat) (p : Property) :
    Foretold (leavesOut depth p : Draw γ Bool) id (.ok (isLeftOut depth p)) := by
  unfold leavesOut isLeftOut
  cases p.constant with
  | true => exact foretold_pure true
  | false =>
    cases p.required with
    | true => exact foretold_pure false
    | false =>
      by_cases hd : optionalDepth < depth
      · simp only [hd, if_true]
        exact foretold_pure true
      · simp only [hd, if_false]
        have hu : Yields (drawn Generator.unit : Draw γ Float) fun chance => ¬ chance ≤ omission :=
          yields_drawn fun g => UnitDouble.not_le_zero (hf g)
        refine (granted_drawn _).bind hu fun chance hc => ?_
        simp only [hc]
        exact foretold_pure false

omit [Generator γ] in
theorem foretold_insertChecked (path : List String) (v : Value) (object : Keyed Value) :
    Foretold (ExceptT.mk (pure (insertChecked path v object)) : Draw γ (Keyed Value))
      (fun _ => ()) (checkPath path) := by
  have h : (insertChecked path v object).map (fun _ => ()) = checkPath path := by
    unfold insertChecked checkPath
    cases path.find? suggestsSecret <;> rfl
  rw [← h]
  exact foretold_of_outcome _

/-- By induction on the properties; a refusal foretold for one of them stands for the object. -/
theorem foretold_members (hf : FillsOptional γ) {valueOf : ValueType → Draw γ Value}
    {forecastOf : ValueType → Forecast}
    (hv : ∀ type, Foretold (valueOf type) Value.isNull (forecastOf type)) (depth : Nat)
    (properties : List Property) (object : Keyed Value) :
    Foretold (members valueOf depth properties object) (fun _ => ())
      (forecastMembers forecastOf depth properties) := by
  induction properties generalizing object with
  | nil => exact foretold_pure object
  | cons p rest ih =>
    have hout := foretold_leavesOut hf depth p
    rw [forecastMembers]
    -- the members so far differ from run to run, so they stay general in the induction
    cases hb : isLeftOut depth p with
    | true =>
      rw [hb] at hout
      refine hout.bind_ok ?_
      rintro _ rfl
      exact ih object
    | false =>
      rw [hb] at hout
      refine hout.bind_ok ?_
      rintro _ rfl
      have hp := hv p.type
      simp only [Bool.false_eq_true, if_false]
      cases hfate : forecastOf p.type with
      | error r =>
        rw [hfate] at hp
        exact hp.bind_error _
      | ok void =>
        rw [hfate] at hp
        refine hp.bind_ok fun v hnull => ?_
        subst hnull
        cases hn : v.isNull with
        | true => exact ih object
        | false =>
          have hi := foretold_insertChecked (γ := γ) p.path v object
          simp only [Bool.false_eq_true, if_false]
          cases hc : checkPath p.path with
          | error r =>
            rw [hc] at hi
            exact hi.bind_error _
          | ok u =>
            rw [hc] at hi
            exact hi.bind_ok fun object _ => ih object

theorem foretold_object (hf : FillsOptional γ) (schemas : List Schema)
    {named : Nat → String → Draw γ Value} {forecast : Nat → String → Forecast} (depth : Nat)
    (hv : ∀ type, Foretold (value named depth type) Value.isNull
      (forecastValue forecast depth type)) (schema : Schema) :
    Foretold (object schemas named depth schema) Value.isNull
      (forecastObject schemas forecast depth schema) := by
  unfold object forecastObject
  split
  · exact foretold_pure Value.null
  · have hm := foretold_members hf hv depth (mergedProperties schemas schema) []
    cases hc : forecastMembers (forecastValue forecast depth) depth
        (mergedProperties schemas schema) with
    | error r =>
      rw [hc] at hm
      exact hm.bind_error _
    | ok u =>
      rw [hc] at hm
      exact hm.bind_ok fun members _ => foretold_pure (Value.object members)

/-! ### Values of all types -/

omit [Generator γ] in
theorem Granted.made {x : Draw γ α} (hx : Granted x) (f : α → Value)
    (hf : ∀ a, (f a).isNull = false) :
    Foretold (do pure (f (← x)) : Draw γ Value) Value.isNull (.ok false) := by
  refine hx.bind (yields_any _) fun a _ => ?_
  rw [← hf a]
  exact foretold_pure (f a)

theorem foretold_percentage (h : Generator.InRange γ) :
    Foretold (do pure (.double ((← drawn Generator.unit) * 100.0)) : Draw γ Value) Value.isNull
      (.ok false) := by
  have hg : Granted (do pure (.double ((← drawn Generator.unit) * 100.0)) : Draw γ Value) :=
    (granted_drawn _).bind (yields_any _) fun x _ => granted_pure _
  refine hg.foretold ((yields_percentage h).mono ?_)
  rintro _ ⟨x, -, rfl⟩
  rfl

theorem foretold_value (h : Generator.InRange γ) {model : Nat → String → Draw γ Value}
    {forecast : Nat → String → Forecast}
    (hm : ∀ depth name, Foretold (model depth name) Value.isNull (forecast depth name))
    (depth : Nat) (type : ValueType) :
    Foretold (value model depth type) Value.isNull (forecastValue forecast depth type) := by
  induction type generalizing depth with
  | string => exact granted_text.made Value.string fun _ => rfl
  | integer => exact (granted_drawn _).made (fun n : Nat => Value.integer n) fun _ => rfl
  | long => exact (granted_drawn _).made (fun n : Nat => Value.integer n) fun _ => rfl
  | float => exact foretold_percentage h
  | double => exact foretold_percentage h
  | boolean => exact (granted_drawn _).made Value.bool fun _ => rfl
  | dateTime => exact (granted_drawn _).made (fun n => .string (momentText firstDay n)) fun _ => rfl
  | duration => exact (granted_drawn _).made (fun n => .string (durationText n)) fun _ => rfl
  | uuid => exact (granted_drawn _).made Value.string fun _ => rfl
  | url => exact granted_text.made (fun s => .string ("http://example.org/" ++ s)) fun _ => rfl
  | object => exact granted_text.made (fun s => .string ("data" ++ s)) fun _ => rfl
  | binary => exact foretold_pure Value.null
  | enum values =>
    cases values with
    | nil => exact foretold_pure Value.null
    | cons first rest =>
      exact (granted_drawn _).made (fun n => .string ((first :: rest).getD n first)) fun _ => rfl
  | list item ih =>
    unfold value forecastValue
    split
    · exact (granted_drawn _).bind (yields_any _) fun n _ => foretold_list (ih (depth + 1)) n
    · exact foretold_pure (Value.array [])
  | map item ih =>
    unfold value forecastValue
    split
    · exact (granted_drawn _).bind (yields_any _) fun n _ => foretold_map (ih (depth + 1)) n
    · exact foretold_pure (Value.object [])
  | model name => exact hm (depth + 1) name

/-- By induction on the levels left, with the type of each property inside. -/
theorem foretold_objectWithin (h : Generator.InRange γ) (hf : FillsOptional γ)
    (schemas : List Schema) (levels depth : Nat) (name : String) :
    Foretold (objectWithin schemas levels depth name : Draw γ Value) Value.isNull
      (forecastWithin schemas levels depth name) := by
  induction levels generalizing depth name with
  | zero => exact foretold_pure Value.null
  | succ levels ih =>
    rw [objectWithin, forecastWithin]
    cases findSchema schemas name with
    | none => exact foretold_pure Value.null
    | some schema => exact foretold_object hf schemas depth (foretold_value h ih depth) schema

end

/-- Whether data is refused, and for which key, does not hang on what is drawn, nor does whether a
value is `null`. -/
theorem refusal_independent_of_draws {γ δ : Type} [Generator γ] [Generator δ]
    (hγ : Generator.InRange γ) (hδ : Generator.InRange δ) (fγ : FillsOptional γ)
    (fδ : FillsOptional δ) (schemas : List Schema) (depth : Nat) (g : γ) (h : δ) :
    (∀ type, ((valueOfType schemas depth type).run g).1.map Value.isNull =
        ((valueOfType schemas depth type).run h).1.map Value.isNull) ∧
      ∀ schema, ((valueOfSchema schemas depth schema).run g).1.map Value.isNull =
        ((valueOfSchema schemas depth schema).run h).1.map Value.isNull := by
  have mγ : ∀ depth name, Foretold (valueOfSchemaNamed schemas depth name : Draw γ Value)
      Value.isNull (forecastWithin schemas levels depth name) :=
    foretold_objectWithin hγ fγ schemas levels
  have mδ : ∀ depth name, Foretold (valueOfSchemaNamed schemas depth name : Draw δ Value)
      Value.isNull (forecastWithin schemas levels depth name) :=
    foretold_objectWithin hδ fδ schemas levels
  constructor
  · intro type
    exact (foretold_value hγ mγ depth type g).trans (foretold_value hδ mδ depth type h).symm
  · intro schema
    exact (foretold_object fγ schemas depth (foretold_value hγ mγ depth) schema g).trans
      (foretold_object fδ schemas depth (foretold_value hδ mδ depth) schema h).symm

/-- The code that opens a safe must not get out. -/
def safes : List Schema :=
  [⟨"Safe", none, [],
    [⟨"labels", "properties.labels", .list .string, false, false, false, none⟩,
      ⟨"lock", "properties.lock", .model "Lock", true, false, false, none⟩]⟩,
    ⟨"Lock", none, [], [⟨"opening", "openingCode", .string, true, false, false, none⟩]⟩]

theorem safe_refused :
    let safe : Draw Counter Value := valueOfType safes 0 (.map (.model "Safe"))
    Generator.InRange Counter ∧ FillsOptional Counter ∧
      (safe.run ⟨0⟩).1.map Value.isNull = .error ⟨"openingCode"⟩ ∧
      (safe.run ⟨7⟩).1.map Value.isNull = .error ⟨"openingCode"⟩ := by
  intro safe
  have hf : FillsOptional Counter := by
    intro g
    show (0.0 : Float) < 0.5
    decide
  have hr : (safe.run ⟨0⟩).1.map Value.isNull = .error ⟨"openingCode"⟩ := by rfl
  have hi := Counter.inRange
  have hs := (refusal_independent_of_draws hi hi hf hf safes 0 ⟨0⟩ ⟨7⟩).1 (.map (.model "Safe"))
  exact ⟨hi, hf, hr, hs.symm.trans hr⟩

end Lifecycle.Mock
