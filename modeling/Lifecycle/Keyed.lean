/-!
# Ordered collections by key

A list of pairs with one entry per key, kept in the order in which the keys first came. Writing to
a key that is present changes its value in place; looking up is `List.lookup`.
-/

namespace Lifecycle

/-- Entries by key, in order of first appearance. -/
abbrev Keyed (α : Type) := List (String × α)

namespace Keyed

/-- Set the value of a key: in place if the key is present, else at the end. -/
def put (key : String) (value : α) : Keyed α → Keyed α
  | [] => [(key, value)]
  | (k, v) :: rest => if k == key then (k, value) :: rest else (k, v) :: put key value rest

def keys (entries : Keyed α) : List String :=
  entries.map (·.1)

/-- Entries written one after the other into an empty collection. -/
def ofList (pairs : List (String × α)) : Keyed α :=
  pairs.foldl (fun entries p => put p.1 p.2 entries) []

theorem lookup_put_self (key : String) (value : α) (entries : Keyed α) :
    (put key value entries).lookup key = some value := by
  induction entries with
  | nil => simp [put]
  | cons p rest ih =>
    obtain ⟨k, v⟩ := p
    by_cases h : k = key
    · simp [put, h]
    · have h' : (key == k) = false := by simpa using fun e => h e.symm
      simp [put, h, List.lookup_cons, h', ih]

theorem lookup_put_of_ne {key other : String} (h : other ≠ key) (value : α) (entries : Keyed α) :
    (put key value entries).lookup other = entries.lookup other := by
  have hk : (other == key) = false := beq_eq_false_iff_ne.mpr h
  induction entries with
  | nil => simp [put, List.lookup_cons, hk]
  | cons p rest ih =>
    obtain ⟨k, v⟩ := p
    by_cases he : k = key
    · simp [put, he, List.lookup_cons, hk]
    · simp [put, he, List.lookup_cons, ih]

/-- Writing what is there already changes nothing. -/
theorem put_of_lookup {key : String} {value : α} {entries : Keyed α}
    (h : entries.lookup key = some value) : put key value entries = entries := by
  induction entries with
  | nil => cases h
  | cons p rest ih =>
    obtain ⟨k, v⟩ := p
    rw [List.lookup_cons] at h
    by_cases hk : k = key
    · subst hk
      rw [beq_self_eq_true] at h
      obtain rfl : v = value := Option.some.inj h
      rw [put, if_pos (beq_self_eq_true k)]
    · rw [beq_eq_false_iff_ne.mpr (Ne.symm hk)] at h
      rw [put, if_neg (by simpa using hk), ih h]

/-- The keys that are there stay in place; a new one comes last. -/
theorem keys_prefix_put (key : String) (value : α) (entries : Keyed α) :
    keys entries <+: keys (put key value entries) := by
  induction entries with
  | nil => exact List.nil_prefix
  | cons p rest ih =>
    obtain ⟨k, v⟩ := p
    rw [put]
    split
    · exact List.prefix_refl _
    · exact List.cons_prefix_cons.mpr ⟨rfl, ih⟩

end Keyed

end Lifecycle
