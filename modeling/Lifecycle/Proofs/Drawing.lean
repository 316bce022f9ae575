import Lifecycle.Mock.Value

/-!
# Laws of draws

A draw goes on with what it has drawn, or stops at a refusal. `Yields` says what holds of everything
that can be drawn; `Foretold` says that the outcome can be told without the generator, as far as a
view shows it. Both go through a sequence of draws step by step. A value of a type that holds no
others takes a single draw.
-/
namespace Lifecycle

/-- Nothing is held: no list, no map, and no object of a schema. -/
def ValueType.isLeaf : ValueType → Bool
  | .list _ | .map _ | .model _ => false
  | _ => true

/-- Neither an array nor an object. -/
inductive Json.Value.IsLeaf : Json.Value → Prop
  | null : IsLeaf .null
  | bool (b : Bool) : IsLeaf (.bool b)
  | number (n : Json.Number) : IsLeaf (.number n)
  | string (s : String) : IsLeaf (.string s)

namespace Mock

open Json

variable {γ α β : Type}

theorem run_bind_ok {x : Draw γ α} {g g' : γ} {a : α} (h : x.run g = (.ok a, g'))
    (f : α → Draw γ β) : (x >>= f).run g = (f a).run g' := by
  rw [ExceptT.run_bind]
  simp [bind, StateT.bind, h]

theorem run_bind_error {x : Draw γ α} {g g' : γ} {r : Refusal} (h : x.run g = (.error r, g'))
    (f : α → Draw γ β) : (x >>= f).run g = (.error r, g') := by
  rw [ExceptT.run_bind]
  simp [bind, StateT.bind, h]
  rfl

/-- A granted draw was granted at each step, and the generator is handed on. -/
theorem run_bind_eq_ok {x : Draw γ α} {f : α → Draw γ β} {g g' : γ} {b : β}
    (h : (x >>= f).run g = (.ok b, g')) :
    ∃ a g₁, x.run g = (.ok a, g₁) ∧ (f a).run g₁ = (.ok b, g') := by
  rcases hx : x.run g with ⟨r | a, g₁⟩
  · rw [run_bind_error hx] at h
    cases h
  · rw [run_bind_ok hx] at h
    exact ⟨a, g₁, rfl, h⟩

/-! ### What is drawn -/

/-- Whatever is drawn, if nothing is refused, has a property. -/
def Yields (x : Draw γ α) (P : α → Prop) : Prop :=
  ∀ g a, (x.run g).1 = .ok a → P a

theorem yields_pure {P : α → Prop} {a : α} (h : P a) : Yields (pure a : Draw γ α) P := by
  intro g b hb
  cases hb
  exact h

theorem yields_drawn {P : α → Prop} {draw : γ → α × γ} (h : ∀ g, P (draw g).1) :
    Yields (drawn draw) P := by
  intro g a ha
  cases ha
  exact h g

theorem yields_of_outcome {P : α → Prop} {r : Except Refusal α} (h : ∀ a, r = .ok a → P a) :
    Yields (ExceptT.mk (pure r) : Draw γ α) P := by
  intro g a ha
  exact h a ha

theorem yields_any (x : Draw γ α) : Yields x fun _ => True := fun _ _ _ => trivial

theorem Yields.mono {x : Draw γ α} {P Q : α → Prop} (h : Yields x P) (hPQ : ∀ a, P a → Q a) :
    Yields x Q := fun g a ha => hPQ a (h g a ha)

/-- What is granted after two draws rests on both of them. -/
theorem Yields.bind {x : Draw γ α} {f : α → Draw γ β} {P : α → Prop} {Q : β → Prop}
    (hx : Yields x P) (hf : ∀ a, P a → Yields (f a) Q) : Yields (x >>= f) Q := by
  intro g b hb
  rcases h : x.run g with ⟨r | a, g'⟩
  · rw [run_bind_error h] at hb
    cases hb
  · rw [run_bind_ok h] at hb
    have ha : (x.run g).1 = .ok a := by rw [h]
    exact hf a (hx g a ha) g' b hb

theorem yields_repeated {x : Draw γ α} {P : α → Prop} (hx : Yields x P) (n : Nat) :
    Yields (repeated n x) fun as => as.length = n ∧ ∀ a ∈ as, P a := by
  induction n with
  | zero => exact yields_pure ⟨rfl, by simp⟩
  | succ n ih =>
    refine hx.bind fun a ha => ih.bind fun as has => yields_pure ⟨?_, ?_⟩
    · rw [List.length_cons, has.1]
    · intro b hb
      rcases List.mem_cons.mp hb with rfl | hb
      · exact ha
      · exact has.2 b hb

/-- Constant properties are left out. -/
theorem yields_leavesOut [Generator γ] (depth : Nat) (p : Property) :
    Yields (leavesOut depth p : Draw γ Bool) fun out => out = false → p.constant = false := by
  unfold leavesOut
  cases p.constant with
  | true => exact yields_pure (by simp)
  | false => exact (yields_any _).mono fun _ _ _ => rfl

theorem eq_insertAt_of_insertChecked {path : List String} {v : Value} {object after : Keyed Value}
    (h : insertChecked path v object = .ok after) : after = insertAt path v object := by
  unfold insertChecked at h
  split at h
  · cases h
  · exact (Except.ok.inj h).symm

/-! ### What can be told beforehand -/

/-- Whatever the state of the generator, the outcome is the same as far as the view shows. -/
def Foretold (x : Draw γ α) (view : α → β) (outcome : Except Refusal β) : Prop :=
  ∀ g, (x.run g).1.map view = outcome

variable {α' β' : Type} {view : α → β} {view' : α' → β'}

theorem foretold_pure (a : α) : Foretold (pure a : Draw γ α) view (.ok (view a)) := fun _ => rfl

theorem foretold_of_outcome (r : Except Refusal α) :
    Foretold (ExceptT.mk (pure r) : Draw γ α) view (r.map view) := fun _ => rfl

/-- A sequence whose first step is refused is refused with it. -/
theorem Foretold.bind_error {x : Draw γ α} {r : Refusal} (hx : Foretold x view (.error r))
    (f : α → Draw γ α') : Foretold (x >>= f) view' (.error r) := by
  intro g
  have ho := hx g
  rcases h : x.run g with ⟨s | a, g'⟩
  · rw [h] at ho
    rw [run_bind_error h]
    cases ho
    rfl
  · rw [h] at ho
    cases ho

/-- Nothing is refused. -/
def Granted (x : Draw γ α) : Prop := Foretold x (fun _ => ()) (.ok ())

theorem granted_pure (a : α) : Granted (pure a : Draw γ α) := foretold_pure a

theorem granted_drawn (draw : γ → α × γ) : Granted (drawn draw) := fun _ => rfl

/-- A sequence whose first step is not refused goes on with what that may yield. -/
theorem Granted.bind {x : Draw γ α} {f : α → Draw γ α'} {outcome : Except Refusal β'}
    {P : α → Prop} (hx : Granted x) (hy : Yields x P)
    (hf : ∀ a, P a → Foretold (f a) view' outcome) : Foretold (x >>= f) view' outcome := by
  intro g
  have ho := hx g
  rcases h : x.run g with ⟨r | a, g'⟩
  · rw [h] at ho
    cases ho
  · have ha : P a := hy g a (by rw [h])
    rw [run_bind_ok h]
    exact hf a ha g'

theorem Foretold.granted {x : Draw γ α} {b : β} (hx : Foretold x view (.ok b)) : Granted x := by
  intro g
  have ho := hx g
  rcases h : (x.run g).1 with r | a
  · rw [h] at ho
    cases ho
  · rfl

theorem Foretold.yields {x : Draw γ α} {b : β} (hx : Foretold x view (.ok b)) :
    Yields x fun a => view a = b := by
  intro g a ha
  have ho := hx g
  rw [ha] at ho
  exact Except.ok.inj ho

theorem Granted.foretold {x : Draw γ α} {b : β} (hx : Granted x)
    (hy : Yields x fun a => view a = b) : Foretold x view (.ok b) := by
  intro g
  have ho := hx g
  rcases h : (x.run g).1 with r | a
  · rw [h] at ho
    cases ho
  · exact congrArg Except.ok (hy g a h)

/-- A draw that is granted leaves the forecast to what follows. -/
theorem Foretold.bind_ok {x : Draw γ α} {f : α → Draw γ α'} {b : β} {outcome : Except Refusal β'}
    (hx : Foretold x view (.ok b)) (hf : ∀ a, view a = b → Foretold (f a) view' outcome) :
    Foretold (x >>= f) view' outcome :=
  hx.granted.bind hx.yields hf

/-! ### Draws that are not refused -/

theorem granted_repeated {x : Draw γ α} (hx : Granted x) (n : Nat) : Granted (repeated n x) := by
  induction n with
  | zero => exact granted_pure []
  | succ n ih =>
    refine hx.bind (yields_any _) fun a _ => ?_
    refine ih.bind (yields_any _) fun rest _ => ?_
    exact granted_pure (a :: rest)

theorem granted_letter [Generator γ] : Granted (letter : Draw γ Char) := by
  refine (granted_drawn _).bind (yields_any _) fun n _ => ?_
  exact granted_pure _

theorem granted_text [Generator γ] : Granted (text : Draw γ String) := by
  refine (granted_drawn _).bind (yields_any _) fun n _ => ?_
  refine (granted_repeated granted_letter (n + 1)).bind (yields_any _) fun letters _ => ?_
  exact granted_pure _

/-! ### Values of types that hold no others -/

theorem isLeaf_double (x : Float) : (Value.double x).IsLeaf := by
  unfold Value.double
  split
  · exact .number _
  · exact .null

/-- A leaf takes one draw, which nothing can refuse. -/
theorem exists_value_leaf [Generator γ] {type : ValueType} (ht : type.isLeaf = true) :
    ∃ (α : Type) (x : Draw γ α) (f : α → Value), Granted x ∧ (∀ a, (f a).IsLeaf) ∧
      ∀ model depth, value model depth type = (do pure (f (← x)) : Draw γ Value) := by
  cases type with
  | string => exact ⟨_, text, .string, granted_text, .string, fun _ _ => rfl⟩
  | integer =>
    exact ⟨Nat, _, fun n => .integer n, granted_drawn _, fun n => .number (.integer n),
      fun _ _ => rfl⟩
  | long =>
    exact ⟨Nat, _, fun n => .integer n, granted_drawn _, fun n => .number (.integer n),
      fun _ _ => rfl⟩
  | float => exact ⟨_, _, _, granted_drawn _, fun x => isLeaf_double (x * 100.0), fun _ _ => rfl⟩
  | double => exact ⟨_, _, _, granted_drawn _, fun x => isLeaf_double (x * 100.0), fun _ _ => rfl⟩
  | boolean => exact ⟨_, _, .bool, granted_drawn _, .bool, fun _ _ => rfl⟩
  | dateTime =>
    exact ⟨_, _, _, granted_drawn _, fun n => .string (momentText firstDay n), fun _ _ => rfl⟩
  | duration => exact ⟨_, _, _, granted_drawn _, fun n => .string (durationText n), fun _ _ => rfl⟩
  | uuid => exact ⟨_, _, .string, granted_drawn _, .string, fun _ _ => rfl⟩
  | url =>
    exact ⟨_, _, _, granted_text, fun s => .string ("http://example.org/" ++ s), fun _ _ => rfl⟩
  | object => exact ⟨_, _, _, granted_text, fun s => .string ("data" ++ s), fun _ _ => rfl⟩
  | binary => exact ⟨Unit, _, fun _ => .null, granted_pure (), fun _ => .null, fun _ _ => rfl⟩
  | enum values =>
    cases values with
    | nil => exact ⟨Unit, _, fun _ => .null, granted_pure (), fun _ => .null, fun _ _ => rfl⟩
    | cons first rest =>
      exact ⟨_, _, _, granted_drawn _, fun n => .string ((first :: rest).getD n first),
        fun _ _ => rfl⟩
  | list item => cases ht
  | map item => cases ht
  | model name => cases ht

section

variable [Generator γ] {type : ValueType} (model : Nat → String → Draw γ Value) (depth : Nat)

theorem granted_leaf (ht : type.isLeaf = true) : Granted (value model depth type) := by
  obtain ⟨α, x, f, hx, -, hv⟩ := exists_value_leaf (γ := γ) ht
  rw [hv]
  exact hx.bind (yields_any _) fun a _ => granted_pure (f a)

theorem yields_leaf (ht : type.isLeaf = true) : Yields (value model depth type) Value.IsLeaf := by
  obtain ⟨α, x, f, -, hf, hv⟩ := exists_value_leaf (γ := γ) ht
  rw [hv]
  exact (yields_any x).bind fun a _ => yields_pure (hf a)

end

/-! ### A generator that counts, and schemas to draw from -/

/-- Draws the number of the draws before. -/
structure Counter where
  count : Nat

namespace Counter

def next (c : Counter) : Counter := ⟨c.count + 1⟩

instance : Generator Counter where
  below bound c := (c.count % max bound 1, c.next)
  long c := (c.count % Nat.pow 2 63, c.next)
  unit c := (0.5, c.next)
  bool c := (c.count % 2 == 0, c.next)
  uuid c := ("12345678-1234-4234-8234-123456789012", c.next)

/-- A counter draws in range, for all its counts. -/
theorem inRange : Generator.InRange Counter where
  below_lt bound c hb := by
    have hm : max bound 1 = bound := Nat.max_eq_left hb
    have h : c.count % max bound 1 < max bound 1 := Nat.mod_lt _ (by omega)
    exact Nat.lt_of_lt_of_eq h hm
  long_lt c := Nat.mod_lt _ (by decide)
  unit_nonneg _ := by
    show (0.0 : Float) ≤ 0.5
    decide
  unit_lt _ := by
    show (0.5 : Float) < 1.0
    decide

end Counter

/-- A disk may be the copy of another one, which is then told of inside it. -/
def disk : Schema :=
  ⟨"Disk", none, [],
    [⟨"size", "properties.size", .integer, true, false, false, none⟩,
      ⟨"source", "properties.source", .model "Disk", false, false, false, none⟩,
      ⟨"tags", "tags", .map (.enum ["a", "b"]), false, false, false, none⟩]⟩

end Mock

end Lifecycle
