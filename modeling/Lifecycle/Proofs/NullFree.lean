import Mathlib.Logic.Relation
import Lifecycle.Json.Path

/-!
# Values without `null` inside

A value may be `null` itself and still have none inside. Writing a value at a path keeps what is
asked of all members of an object, such as that they are free of `null`, and adds no member but the
first name of the path.
-/
namespace Lifecycle

namespace Json

namespace Value

/-- `w` is an item of an array, or stands in a member of an object. -/
inductive Child (w : Value) : Value → Prop
  | item {items : List Value} : w ∈ items → Child w (.array items)
  | member {key : String} {members : Keyed Value} : (key, w) ∈ members → Child w (.object members)

/-- `w` stands strictly inside a value, at whatever depth. -/
def Inside : Value → Value → Prop := Relation.TransGen Child

def NullFree (v : Value) : Prop := ∀ w : Value, w.Inside v → w ≠ .null

theorem nullFree_iff {v : Value} : v.NullFree ↔ ∀ w : Value, w.Child v → w ≠ .null ∧ w.NullFree := by
  constructor
  · intro h w hw
    refine ⟨h w (.single hw), ?_⟩
    intro u hu
    exact h u (hu.tail hw)
  · intro h u hu
    cases hu with
    | single hw => exact (h u hw).1
    | tail hu hw => exact (h _ hw).2 u hu

theorem nullFree_array {items : List Value} :
    (array items).NullFree ↔ ∀ w ∈ items, w ≠ .null ∧ w.NullFree := by
  rw [nullFree_iff]
  constructor
  · intro h w hw
    exact h w (.item hw)
  · rintro h w ⟨hw⟩
    exact h w hw

theorem nullFree_object {members : Keyed Value} :
    (object members).NullFree ↔ ∀ p ∈ members, p.2 ≠ .null ∧ p.2.NullFree := by
  rw [nullFree_iff]
  constructor
  · rintro h ⟨key, w⟩ hp
    exact h w (.member hp)
  · intro h w hw
    cases hw with
    | member hp => exact h _ hp

theorem nullFree_null : null.NullFree := nullFree_iff.mpr fun _ h => nomatch h

theorem nullFree_bool (b : Bool) : (bool b).NullFree := nullFree_iff.mpr fun _ h => nomatch h

theorem nullFree_number (n : Number) : (number n).NullFree := nullFree_iff.mpr fun _ h => nomatch h

theorem nullFree_string (s : String) : (string s).NullFree := nullFree_iff.mpr fun _ h => nomatch h

theorem isNull_iff {v : Value} : v.isNull = true ↔ v = .null := by
  cases v <;> simp [isNull]

theorem ne_null_of_isNull {v : Value} (h : v.isNull = false) : v ≠ .null := by
  rintro rfl
  cases h

end Value

end Json

namespace Keyed

variable {α : Type} {key : String} {value : α} {entries : Keyed α}

theorem mem_put {p : String × α} (h : p ∈ put key value entries) : p = (key, value) ∨ p ∈ entries := by
  induction entries with
  | nil => exact .inl (List.mem_singleton.mp h)
  | cons q rest ih =>
    obtain ⟨k, v⟩ := q
    rw [put] at h
    split at h
    · rename_i hk
      rw [eq_of_beq hk] at h
      rcases List.mem_cons.mp h with h | h
      · exact .inl h
      · exact .inr (List.mem_cons_of_mem _ h)
    · rcases List.mem_cons.mp h with h | h
      · exact .inr (h ▸ List.mem_cons_self)
      · exact (ih h).imp_right (List.mem_cons_of_mem _)

theorem length_put_le : (put key value entries).length ≤ entries.length + 1 := by
  induction entries with
  | nil => simp [put]
  | cons q rest ih =>
    obtain ⟨k, v⟩ := q
    rw [put]
    split
    · simp
    · simpa using ih

theorem mem_keys_put {k : String} (h : k ∈ keys (put key value entries)) :
    k = key ∨ k ∈ keys entries := by
  obtain ⟨p, hp, rfl⟩ := List.mem_map.mp h
  rcases mem_put hp with rfl | hp
  · exact .inl rfl
  · exact .inr (List.mem_map_of_mem hp)

end Keyed

namespace Json

/-- Writing at a path adds at most its first name to the keys. -/
theorem mem_keys_insertAt {path : List String} {v : Value} {members : Keyed Value} {k : String}
    (h : k ∈ Keyed.keys (insertAt path v members)) :
    k ∈ Keyed.keys members ∨ path.head? = some k := by
  have hput {key : String} {w : Value} (h : k ∈ Keyed.keys (Keyed.put key w members)) :
      k ∈ Keyed.keys members ∨ some key = some k := by
    rcases Keyed.mem_keys_put h with rfl | h
    · exact .inr rfl
    · exact .inl h
  match path with
  | [] => exact .inl h
  | [key] => exact hput h
  | key :: next :: path =>
    rw [insertAt] at h
    split at h
    · exact hput h
    · exact hput h
    · exact .inl h

/-- An object meets a condition if its members meet one of their own and their values meet it. -/
def Memberwise (good : Value → Prop) (fits : String → Value → Prop) : Prop :=
  ∀ members, good (.object members) ↔ ∀ p ∈ members, fits p.1 p.2 ∧ good p.2

namespace Memberwise

variable {good : Value → Prop} {fits : String → Value → Prop} {v : Value} {members : Keyed Value}

theorem put (h : Memberwise good fits) {key : String} (hk : fits key v) (hv : good v)
    (hm : good (.object members)) : good (.object (Keyed.put key v members)) := by
  rw [h] at hm ⊢
  intro p hp
  rcases Keyed.mem_put hp with rfl | hp
  · exact ⟨hk, hv⟩
  · exact hm p hp

theorem of_lookup (h : Memberwise good fits) {key : String} (hm : good (.object members))
    (hl : members.lookup key = some v) : good v := by
  obtain ⟨front, back, rfl, -⟩ := List.lookup_eq_some_iff.mp hl
  exact ((h _).mp hm (key, v) (by simp)).2

/-- Along a path, only objects and the value itself are written. -/
theorem insertAt (h : Memberwise good fits) {path : List String}
    (hobject : ∀ key ∈ path, ∀ inner, fits key (.object inner)) (hvalue : ∀ key ∈ path, fits key v)
    (hv : good v) (hm : good (.object members)) :
    good (.object (Json.insertAt path v members)) := by
  induction path generalizing members with
  | nil => exact hm
  | cons key rest ih =>
    rw [List.forall_mem_cons] at hobject hvalue
    cases rest with
    | nil => exact h.put hvalue.1 hv hm
    | cons next path =>
      rw [Json.insertAt]
      split
      · have he : good (.object []) := (h []).mpr (by simp)
        exact h.put (hobject.1 _) (ih hobject.2 hvalue.2 he) hm
      · rename_i inner hl
        exact h.put (hobject.1 _) (ih hobject.2 hvalue.2 (h.of_lookup hm hl)) hm
      · exact hm

end Memberwise

theorem nullFree_memberwise : Memberwise Value.NullFree fun _ v => v ≠ .null :=
  fun _ => Value.nullFree_object

theorem nullFree_insertAt {path : List String} {v : Value} (hv : v ≠ .null) (hi : v.NullFree)
    {members : Keyed Value} (hm : (Value.object members).NullFree) :
    (Value.object (insertAt path v members)).NullFree :=
  nullFree_memberwise.insertAt (fun _ _ _ => nofun) (fun _ _ => hv) hi hm

end Json

end Lifecycle
