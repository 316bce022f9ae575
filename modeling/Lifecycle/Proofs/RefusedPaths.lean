import Lifecycle.Proofs.Foresight
import Lifecycle.Proofs.OffendingKey
import Lifecycle.Proofs.PathOutcome

/-!
# Which paths data is refused for

If an object of a schema is refused, then the key in question stands on the path of a property that
is come to from the schema, in whatever chain of parents and types, and it suggests a secret. In
return, an object is always refused whose schema requires a property with such a path, unless there
may be no value for that property. Which of several keys is named hangs on the order of properties,
and may hang on what is drawn.
-/
namespace Lifecycle.Mock

open Json

/-- A key stands on the path of a property that is not constant, in the schema itself or in one that
it leads to. -/
def OnPath (schemas : List Schema) (schema : Schema) (key : String) : Prop :=
  ∃ s, Relation.ReflTransGen (Refers schemas) schema s ∧
    ∃ p ∈ s.properties, p.constant = false ∧ key ∈ p.path

/-- Every object with the property is refused: there is always something to write at its path, on
which a name suggests a secret. -/
structure Forbids (p : Property) : Prop where
  required : p.required = true
  varies : p.constant = false
  suspicious : ∃ key ∈ p.path, Suspicious key
  notBinary : p.type ≠ .binary
  notEmpty : p.type ≠ .enum []
  notModel : ∀ name, p.type ≠ .model name

variable {γ : Type} [Generator γ] {schemas : List Schema} {schema : Schema}

/-- Suspicious names on the paths of all schemas that one refers to, through any chain. -/
theorem covers_onPath (schemas : List Schema) (schema : Schema) :
    Covers schemas (Relation.ReflTransGen (Refers schemas) schema) fun key =>
      Suspicious key ∧ OnPath schemas schema key := by
  constructor
  · intro s t hs hst
    exact hs.tail hst
  · intro s hs p hp hc key hk hsecret
    exact ⟨suggestsSecret_iff.mp hsecret, s, hs, p, hp, hc, hk⟩

theorem not_isVoid_of_forbids {p : Property} (h : Forbids p) (depth : Nat) :
    ¬ IsVoid schemas depth p.type := by
  have hb := h.notBinary
  have he := h.notEmpty
  have hm := h.notModel
  cases ht : p.type with
  | binary => exact absurd ht hb
  | enum values =>
    rintro rfl
    exact he ht
  | model name => exact absurd ht (hm name)
  | _ => exact id

/-- No run comes past a property for which something has to be written, but must not be. -/
theorem yields_members_of_forbids {valueOf : ValueType → Draw γ Value} {properties : List Property}
    {p : Property} (hp : p ∈ properties) (h : Forbids p)
    (hv : Yields (valueOf p.type) fun v => v ≠ .null) (depth : Nat) (object : Keyed Value) :
    Yields (members valueOf depth properties object) fun _ => False := by
  induction properties generalizing object with
  | nil => cases hp
  | cons q rest ih =>
    rcases List.mem_cons.mp hp with rfl | hp
    · have hleft : Yields (leavesOut depth p : Draw γ Bool) fun out => out = false := by
        rw [leavesOut, h.varies, h.required]
        exact yields_pure rfl
      refine hleft.bind fun out hout => ?_
      subst hout
      refine hv.bind fun v hv => ?_
      have hn : v.isNull = false := Bool.eq_false_iff.mpr fun hn => hv (Value.isNull_iff.mp hn)
      simp only [hn, Bool.false_eq_true, if_false]
      have hrefused : Yields (ExceptT.mk (pure (insertChecked p.path v object)) :
          Draw γ (Keyed Value)) fun _ => False := by
        refine yields_of_outcome fun after ha => ?_
        unfold insertChecked at ha
        split at ha
        · cases ha
        · rename_i hnone
          obtain ⟨key, hkey, hs⟩ := h.suspicious
          exact List.find?_eq_none.mp hnone key hkey (suggestsSecret_iff.mpr hs)
      exact hrefused.bind fun _ hfalse => hfalse.elim
    · refine (yields_any _).bind fun out _ => ?_
      split
      · exact ih hp object
      · refine (yields_any _).bind fun v _ => ?_
        split
        · exact ih hp object
        · exact (yields_any _).bind fun after _ => ih hp after

/-- Up to the depth of required properties, an object that needs a forbidden one is never granted.
-/
theorem yields_valueOfSchema_of_forbids (hγ : Generator.InRange γ) {depth : Nat}
    (hd : depth ≤ requiredDepth) {p : Property} (hp : p ∈ mergedProperties schemas schema)
    (h : Forbids p) : Yields (valueOfSchema schemas depth schema : Draw γ Value) fun _ => False := by
  have hv : Yields (valueOfType schemas depth p.type : Draw γ Value) fun v => v ≠ .null :=
    (yields_valueOfType hγ schemas depth p.type).mono fun v hfits hnull =>
      not_isVoid_of_forbids h depth (hfits.null_iff.mp hnull)
  rw [valueOfSchema, object, if_neg (Nat.not_lt_of_le hd)]
  exact (yields_members_of_forbids hp h hv depth []).bind fun _ hfalse => hfalse.elim

/-- An object is only refused for a key that suggests a secret and stands on a path, in the schema
or in one that it leads to. It is always refused if the schema or an ancestor has a property that
forbids it, at all depths at which objects are made up. -/
theorem refused_for_paths (h : Generator.InRange γ) (schemas : List Schema) (depth : Nat)
    (schema : Schema) (g : γ) :
    let outcome := ((valueOfSchema schemas depth schema).run g).1
    (∀ r, outcome = .error r → OnPath schemas schema r.key ∧ Suspicious r.key) ∧
      (depth ≤ requiredDepth → (∃ p ∈ mergedProperties schemas schema, Forbids p) →
        ∃ r, outcome = .error r) := by
  intro outcome
  constructor
  · intro r hr
    have hblames : Blames (valueOfSchema schemas depth schema : Draw γ Value) fun key =>
        Suspicious key ∧ OnPath schemas schema key := by
      have hcovers := covers_onPath schemas schema
      refine blames_object hcovers (fun depth name hn => ?_) depth .refl
      exact blames_objectWithin hcovers levels depth hn
    exact (hblames g r hr).symm
  · rintro hd ⟨p, hp, hforbids⟩
    have hnever := yields_valueOfSchema_of_forbids h hd hp hforbids g
    cases ho : outcome with
    | error r => exact ⟨r, rfl⟩
    | ok v => exact (hnever v ho).elim

theorem safe_refused_for_lock :
    let safe := safes[0]
    let lock := safes[1]
    let outcome (s : Schema) := ((valueOfSchema safes 3 s).run (⟨0⟩ : Counter)).1
    Generator.InRange Counter ∧ outcome safe = .error ⟨"openingCode"⟩ ∧
      OnPath safes safe "openingCode" ∧ Suspicious "openingCode" ∧ 3 ≤ requiredDepth ∧
      (∃ p ∈ mergedProperties safes lock, Forbids p) ∧ ∃ r, outcome lock = .error r := by
  intro safe lock outcome
  have hi := Counter.inRange
  have hr : outcome safe = .error ⟨"openingCode"⟩ := by rfl
  obtain ⟨hpath, hsecret⟩ := (refused_for_paths hi safes 3 safe ⟨0⟩).1 _ hr
  have hd : 3 ≤ requiredDepth := by decide
  have hforbids : ∃ p ∈ mergedProperties safes lock, Forbids p := by
    refine ⟨⟨"opening", "openingCode", .string, true, false, false, none⟩, by decide +kernel, rfl,
      rfl, ⟨"openingCode", by decide +kernel, hsecret⟩, nofun, nofun, nofun⟩
  exact ⟨hi, hr, hpath, hsecret, hd, hforbids, (refused_for_paths hi safes 3 lock ⟨0⟩).2 hd hforbids⟩

end Lifecycle.Mock
