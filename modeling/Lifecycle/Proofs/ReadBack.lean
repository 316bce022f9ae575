import Mathlib.Data.List.Forall2
import Lifecycle.Proofs.Drawing
import Lifecycle.Proofs.NullFree
import Lifecycle.Proofs.PathInsertion
import Lifecycle.Proofs.Sequence
import Lifecycle.Sample

/-!
# What is made up is read back

Examples find the value of a property at its path in the body. There they find what was drawn for the
property, as long as the paths of the properties are apart from each other: no property then takes
another one's place, though they may share objects on the way.
-/
namespace Lifecycle

open Json

/-- An example has a value for the body of a method. -/
def Example.Sends (e : Example) (m : Method) (body : Value) : Prop :=
  ((m.parameters.find? (·.isBody)).bind fun p => e.parameters.lookup p.serializedName) = some body

theorem Example.bodyValue_of_sends {e : Example} {m : Method} {body : Value} (h : e.Sends m body)
    (p : Property) : e.bodyValue m p = (body.at? p.path).getD .null := by
  unfold Example.Sends at h
  rw [Example.bodyValue, h]

namespace Mock

/-- What is drawn for a property at a depth; nothing if the property is left out. -/
def pick {γ : Type} [Generator γ] (valueOf : ValueType → Draw γ Value) (depth : Nat)
    (p : Property) : Draw γ (Option Value) := do
  if ← leavesOut depth p then pure none
  else
    let v ← valueOf p.type
    pure (some v)

/-- Write what was drawn for a property, if it is anything but `null`. -/
def place (path : List String) : Option Value → Keyed Value → Keyed Value
  | none, object => object
  | some v, object => if v.isNull then object else insertAt path v object

/-- The paths of two properties that may both be written are apart. -/
def Separate (p q : Property) : Prop :=
  p.constant = false → q.constant = false → Apart p.path q.path

/-! ### One property -/

theorem at?_place_of_apart {p q : List String} (h : Apart p q) (w : Option Value)
    (object : Keyed Value) :
    (Value.object (place p w object)).at? q = (Value.object object).at? q := by
  cases w with
  | none => rfl
  | some v =>
    rw [place]
    split
    · rfl
    · exact at?_insertAt_of_apart h

theorem vacant_place {p q : List String} (h : Apart p q) {object : Keyed Value}
    (hv : Vacant q object) (w : Option Value) : Vacant q (place p w object) := by
  cases w with
  | none => exact hv
  | some v =>
    rw [place]
    split
    · exact hv
    · exact vacant_insertAt h hv v

/-- Left out and null read alike at the path itself. -/
theorem at?_place_self {path : List String} {object : Keyed Value} (h : Vacant path object)
    (w : Option Value) :
    ((Value.object (place path w object)).at? path).getD .null = w.getD .null := by
  cases w with
  | none =>
    rw [place, h.missing]
  | some v =>
    rw [place]
    split
    · rename_i hn
      rw [h.missing, Value.isNull_iff.mp hn]
      rfl
    · rw [at?_insertAt_self h.writable]

section

variable {γ : Type} [Generator γ] {valueOf : ValueType → Draw γ Value} {depth : Nat}

/-- The members of some properties are those of the rest, once the first is placed. -/
theorem run_members_cons {p : Property} {rest : List Property} {object after : Keyed Value}
    {g g' : γ} (h : (members valueOf depth (p :: rest) object).run g = (.ok after, g')) :
    ∃ w g₁, (pick valueOf depth p).run g = (.ok w, g₁) ∧ (p.constant = true → w = none) ∧
      (members valueOf depth rest (place p.path w object)).run g₁ = (.ok after, g') := by
  rw [members] at h
  obtain ⟨out, g₁, hout, h⟩ := run_bind_eq_ok h
  cases out with
  | true =>
    have hw : (pick valueOf depth p).run g = (.ok none, g₁) := by
      rw [pick, run_bind_ok hout]
      rfl
    exact ⟨none, g₁, hw, fun _ => rfl, h⟩
  | false =>
    have hc : p.constant = false := yields_leavesOut depth p g false (by rw [hout]) rfl
    simp only [Bool.false_eq_true, if_false] at h
    obtain ⟨v, g₂, hv, h⟩ := run_bind_eq_ok h
    have hw : (pick valueOf depth p).run g = (.ok (some v), g₂) := by
      rw [pick, run_bind_ok hout]
      exact run_bind_ok hv _
    refine ⟨some v, g₂, hw, ?_, ?_⟩
    · intro ht
      rw [hc] at ht
      cases ht
    · rw [place]
      cases hn : v.isNull with
      | true =>
        rw [hn] at h
        exact h
      | false =>
        rw [hn] at h
        simp only [Bool.false_eq_true, if_false] at h ⊢
        obtain ⟨inserted, g₃, hi, h⟩ := run_bind_eq_ok h
        obtain ⟨ho, rfl⟩ := Prod.mk.inj hi
        rw [eq_insertAt_of_insertChecked ho] at h
        exact h

/-! ### All properties -/

/-- The members of some properties are what was drawn for each of them, and the way to any path apart
from theirs leads where it led before. -/
theorem read_members {properties : List Property} (hs : properties.Pairwise Separate)
    {object after : Keyed Value} {g g' : γ}
    (hv : ∀ p ∈ properties, p.constant = false → Vacant p.path object)
    (h : (members valueOf depth properties object).run g = (.ok after, g')) :
    ∃ picks, (properties.mapM (pick valueOf depth)).run g = (.ok picks, g') ∧
      (∀ q, (∀ p ∈ properties, p.constant = false → Apart p.path q) →
        (Value.object after).at? q = (Value.object object).at? q) ∧
      List.Forall₂ (fun p w => p.constant = false →
        ((Value.object after).at? p.path).getD .null = w.getD .null) properties picks := by
  induction properties generalizing object g with
  | nil =>
    cases h
    exact ⟨[], rfl, fun q _ => rfl, .nil⟩
  | cons p rest ih =>
    obtain ⟨hp, hrest⟩ := List.pairwise_cons.mp hs
    obtain ⟨w, g₁, hw, hc, h⟩ := run_members_cons h
    -- writing the first property leaves room for the others, whose paths are apart from its own
    have hvr : ∀ q ∈ rest, q.constant = false → Vacant q.path (place p.path w object) := by
      intro q hq hqc
      have hvq := hv q (List.mem_cons_of_mem p hq) hqc
      cases hpc : p.constant with
      | true =>
        rw [hc hpc]
        exact hvq
      | false => exact vacant_place (hp q hq hpc hqc) hvq w
    obtain ⟨picks, hpicks, helse, hread⟩ := ih hrest hvr h
    refine ⟨w :: picks, ?_, ?_, .cons ?_ hread⟩
    · rw [List.mapM_cons, run_bind_ok hw, run_bind_ok hpicks]
      rfl
    · intro q hq
      rw [helse q fun p' hp' => hq p' (List.mem_cons_of_mem p hp')]
      cases hpc : p.constant with
      | true => rw [hc hpc]; rfl
      | false => exact at?_place_of_apart (hq p List.mem_cons_self hpc) w object
    · -- what the others write is not met on the way to the first
      intro hpc
      rw [helse p.path fun q hq hqc => ?_]
      · exact at?_place_self (hv p List.mem_cons_self hpc) w
      · exact (hp q hq hpc hqc).symm

/-- At the path of each property, examples find what was drawn for it. -/
theorem read_valueOfSchema {schemas : List Schema} {depth : Nat} {schema : Schema}
    (hd : depth ≤ requiredDepth)
    (hs : ((mergedProperties schemas schema).filter (!·.constant)).Pairwise
      fun p q => Apart p.path q.path)
    {g g' : γ} {v : Value} (h : (valueOfSchema schemas depth schema).run g = (.ok v, g')) :
    ∃ picks, ((mergedProperties schemas schema).mapM
        (pick (valueOfType schemas depth) depth)).run g = (.ok picks, g') ∧
      List.Forall₂ (fun p w => p.constant = false →
        (v.at? p.path).getD .null = w.getD .null ∧
          ∀ (e : Example) (m : Method), e.Sends m v → e.bodyValue m p = w.getD .null)
        (mergedProperties schemas schema) picks := by
  have hs : (mergedProperties schemas schema).Pairwise Separate := by
    refine (List.pairwise_filter.mp hs).imp fun hpq hp hq => hpq ?_ ?_
    · rw [hp]
      rfl
    · rw [hq]
      rfl
  have hempty : ∀ p ∈ mergedProperties schemas schema, p.constant = false → Vacant p.path [] :=
    fun p _ _ => vacant_nil (splitPath_ne_nil p.serializedName)
  rw [valueOfSchema, object, if_neg (by omega)] at h
  obtain ⟨after, g₁, hm, h⟩ := run_bind_eq_ok h
  cases h
  obtain ⟨picks, hp, -, hread⟩ := read_members hs hempty hm
  refine ⟨picks, hp, hread.imp fun p w hpw hc => ⟨hpw hc, fun e m he => ?_⟩⟩
  rw [Example.bodyValue_of_sends he]
  exact hpw hc

end

theorem read_disk :
    let made : Value := .object [
      ("properties", .object [("size", .integer 0),
        ("source", .object [("properties", .object [("size", .integer 2)])])]),
      ("tags", .object [("hijklmn", .string "b")])]
    let create : Method := ⟨"create", .simple, true, false, .value "Disk",
      Workshop.operation "create" .put "/disks" [Workshop.body "Disk"] "Disk"⟩
    5 ≤ requiredDepth ∧
      ((mergedProperties [disk] disk).filter (!·.constant)).Pairwise
        (fun p q => Apart p.path q.path) ∧
      (valueOfSchema [disk] 5 disk).run (⟨0⟩ : Counter) = (.ok made, ⟨14⟩) ∧
      Example.Sends ⟨none, [("body", made)], []⟩ create made ∧
      ∃ picks, (disk.properties.mapM (pick (valueOfType [disk] 5) 5)).run (⟨0⟩ : Counter) =
          (.ok picks, ⟨14⟩) ∧
        List.Forall₂ (fun p w => p.constant = false →
          (made.at? p.path).getD .null = w.getD .null ∧
            ∀ (e : Example) (m : Method), e.Sends m made → e.bodyValue m p = w.getD .null)
          disk.properties picks := by
  intro made create
  have hr : (valueOfSchema [disk] 5 disk).run (⟨0⟩ : Counter) = (.ok made, ⟨14⟩) := rfl
  have hs : ((mergedProperties [disk] disk).filter (!·.constant)).Pairwise
      fun p q => Apart p.path q.path := by decide +kernel
  have hd : 5 ≤ requiredDepth := by decide
  exact ⟨hd, hs, hr, rfl, read_valueOfSchema hd hs hr⟩

end Mock

end Lifecycle
