import Lifecycle.Json.Path

/-!
# Values written at paths

Writing at a path and reading there gives the value back, as long as the way is free; what is read
elsewhere is not affected. Elsewhere means at a path of which neither is a beginning of the other:
two such paths may share objects on the way.
-/
namespace Lifecycle.Json

/-- Neither path is the other or leads through it. -/
def Apart (p q : List String) : Prop := ¬ p <+: q ∧ ¬ q <+: p

instance (p q : List String) : Decidable (Apart p q) :=
  inferInstanceAs (Decidable (¬ p <+: q ∧ ¬ q <+: p))

/-- A value can be written at a path: nothing but objects stands on the way there. -/
def Writable : List String → Keyed Value → Prop
  | [], _ => False
  | [_], _ => True
  | key :: next :: path, members =>
    ∀ v, members.lookup key = some v → ∃ inner, v = .object inner ∧ Writable (next :: path) inner

/-- A value can be written at a path where there is none. -/
structure Vacant (path : List String) (members : Keyed Value) : Prop where
  writable : Writable path members
  missing : (Value.object members).at? path = none

theorem growFirst_ne_nil (c : Char) (names : List (List Char)) : growFirst c names ≠ [] := by
  cases names <;> simp [growFirst]

theorem splitChars_ne_nil (cs : List Char) : splitChars cs ≠ [] := by
  fun_cases splitChars cs with
  | case1 => simp
  | case2 rest => exact growFirst_ne_nil _ _
  | case3 rest => simp
  | case4 c rest => exact growFirst_ne_nil _ _

theorem splitPath_ne_nil (flattened : String) : splitPath flattened ≠ [] := by
  simpa [splitPath] using splitChars_ne_nil flattened.toList

variable {p q path : List String} {v : Value} {members : Keyed Value}

theorem at?_object_cons (key : String) (path : List String) (members : Keyed Value) :
    (Value.object members).at? (key :: path) = (members.lookup key).bind (·.at? path) := by
  rw [Value.at?, Value.member?]
  cases members.lookup key <;> rfl

theorem writable_nil (hp : path ≠ []) : Writable path [] := by
  cases path with
  | nil => exact hp rfl
  | cons key rest =>
    cases rest with
    | nil => trivial
    | cons next path => exact fun v hv => nomatch hv

theorem at?_nil (hp : path ≠ []) : (Value.object []).at? path = none := by
  cases path with
  | nil => exact (hp rfl).elim
  | cons key rest => rw [at?_object_cons, List.lookup_nil, Option.bind_none]

/-- What was written is read back where it was written. -/
theorem at?_insertAt_self (h : Writable path members) (v : Value) :
    (Value.object (insertAt path v members)).at? path = some v := by
  induction path generalizing members with
  | nil => exact h.elim
  | cons key rest ih =>
    cases rest with
    | nil =>
      rw [insertAt, at?_object_cons, Keyed.lookup_put_self]
      rfl
    | cons next path =>
      rw [insertAt]
      split
      · rw [at?_object_cons, Keyed.lookup_put_self]
        exact ih (writable_nil (by simp))
      · rename_i inner hl
        obtain ⟨_, he, hv⟩ := h _ hl
        cases he
        rw [at?_object_cons, Keyed.lookup_put_self]
        exact ih hv
      · rename_i w hw hl
        obtain ⟨inner, rfl, -⟩ := h _ hl
        exact (hw inner rfl).elim

theorem Apart.of_cons {key : String} (h : Apart (key :: p) (key :: q)) : Apart p q :=
  ⟨fun hp => h.1 (List.cons_prefix_cons.mpr ⟨rfl, hp⟩),
    fun hq => h.2 (List.cons_prefix_cons.mpr ⟨rfl, hq⟩)⟩

/-- Only what stands under its first name is changed by writing at a path. -/
theorem lookup_insertAt_of_ne {key other : String} (h : other ≠ key) :
    (insertAt (key :: path) v members).lookup other = members.lookup other := by
  cases path with
  | nil => exact Keyed.lookup_put_of_ne h v members
  | cons next path =>
    rw [insertAt]
    split
    · exact Keyed.lookup_put_of_ne h _ members
    · exact Keyed.lookup_put_of_ne h _ members
    · rfl

/-- Paths apart from the one written are read as before. -/
theorem at?_insertAt_of_apart (h : Apart p q) :
    (Value.object (insertAt p v members)).at? q = (Value.object members).at? q := by
  induction p generalizing q members with
  | nil => exact (h.1 List.nil_prefix).elim
  | cons key rest ih =>
    cases q with
    | nil => exact (h.2 List.nil_prefix).elim
    | cons other q =>
      rw [at?_object_cons, at?_object_cons]
      by_cases he : other = key
      · subst he
        have ha : Apart rest q := h.of_cons
        cases rest with
        | nil => exact (ha.1 List.nil_prefix).elim
        | cons next path =>
          -- a new object holds nothing but the value written, so the rest of `q` leads nowhere
          have hq : q ≠ [] := fun hq => ha.2 (hq ▸ List.nil_prefix)
          rw [insertAt]
          split
          · rename_i hl
            rw [Keyed.lookup_put_self, hl, Option.bind_some, ih ha]
            exact at?_nil hq
          · rename_i inner hl
            rw [Keyed.lookup_put_self, hl, Option.bind_some, ih ha, Option.bind_some]
          · rfl
      · rw [lookup_insertAt_of_ne he]

/-- Writing leaves room at every path apart from it, also below the same objects. -/
theorem writable_insertAt (h : Apart p q) (hv : Writable q members) (v : Value) :
    Writable q (insertAt p v members) := by
  induction p generalizing q members with
  | nil => exact hv
  | cons key rest ih =>
    cases q with
    | nil => exact hv
    | cons other q =>
      by_cases he : other = key
      · subst he
        have ha : Apart rest q := h.of_cons
        cases rest with
        | nil => exact (ha.1 List.nil_prefix).elim
        | cons next path =>
          cases q with
          | nil => exact (ha.2 List.nil_prefix).elim
          | cons after q =>
            rw [insertAt]
            split
            · intro w hw
              rw [Keyed.lookup_put_self] at hw
              exact ⟨_, (Option.some.inj hw).symm, ih ha (writable_nil (by simp))⟩
            · rename_i inner hl
              obtain ⟨_, he, hin⟩ := hv _ hl
              cases he
              intro w hw
              rw [Keyed.lookup_put_self] at hw
              exact ⟨_, (Option.some.inj hw).symm, ih ha hin⟩
            · exact hv
      · cases q with
        | nil => trivial
        | cons after q =>
          intro w hw
          rw [lookup_insertAt_of_ne he] at hw
          exact hv w hw

theorem vacant_nil (hp : path ≠ []) : Vacant path [] := ⟨writable_nil hp, at?_nil hp⟩

theorem vacant_insertAt (h : Apart p q) (hv : Vacant q members) (v : Value) :
    Vacant q (insertAt p v members) :=
  ⟨writable_insertAt h hv.writable v, (at?_insertAt_of_apart h).trans hv.missing⟩

end Lifecycle.Json
