import Mathlib.Data.List.Infix
import Lifecycle.Mock.Value
import Lifecycle.Proofs.PathInsertion

/-!
# What comes of writing at a path

Writing a value at a path of an object ends in one of three ways. A name on the path suggests a
secret: this is refused before anything is written. The path is empty, or leads through a value that
is no object: then the object stays as it was, and no object is left behind on the way. Otherwise
the value stands at the path in the end. Then there are objects all the way to it, what is not on
the way is as before, and keys stay in order, new ones coming last.
-/
namespace Lifecycle

open Json

namespace Json

/-- Nothing can be written at a path: there is none, or a value other than an object stands on the
way. -/
def Blocked (path : List String) (members : Keyed Value) : Prop :=
  path = [] ∨ ∃ q, q ≠ [] ∧ q <+: path ∧ q ≠ path ∧
    ∃ v, (Value.object members).at? q = some v ∧ ∀ inner, v ≠ .object inner

/-- An object after a value has been written at a path. -/
structure Written (path : List String) (value : Value) (before after : Keyed Value) : Prop where
  held : (Value.object after).at? path = some value
  objects : ∀ q, q <+: path → q ≠ path → ∃ inner, (Value.object after).at? q = some (.object inner)
  elsewhere : ∀ q, Apart path q → (Value.object after).at? q = (Value.object before).at? q
  order : ∀ q inner, ¬ path <+: q → (Value.object before).at? q = some (.object inner) →
    ∃ inner', (Value.object after).at? q = some (.object inner') ∧
      Keyed.keys inner <+: Keyed.keys inner'

variable {path q : List String} {v : Value} {members : Keyed Value}

theorem blocked_cons_cons {key next : String} :
    Blocked (key :: next :: path) members ↔
      ∃ w, members.lookup key = some w ∧
        ∀ inner, w = .object inner → Blocked (next :: path) inner := by
  constructor
  · rintro (h | ⟨q, hq, hpre, hne, w, hat, hw⟩)
    · cases h
    · obtain ⟨other, q, rfl⟩ := List.exists_cons_of_ne_nil hq
      obtain ⟨rfl, hrest⟩ := List.cons_prefix_cons.mp hpre
      rw [at?_object_cons] at hat
      obtain ⟨u, hl, hat⟩ := Option.bind_eq_some_iff.mp hat
      refine ⟨u, hl, ?_⟩
      rintro inner rfl
      -- the value in the way stands here, or further down
      by_cases hnil : q = []
      · subst hnil
        exact absurd (Option.some.inj hat).symm (hw inner)
      · exact .inr ⟨q, hnil, hrest, fun he => hne (by rw [he]), w, hat, hw⟩
  · rintro ⟨w, hl, hw⟩
    have hat (q : List String) : (Value.object members).at? (key :: q) = w.at? q := by
      rw [at?_object_cons, hl, Option.bind_some]
    by_cases ho : ∃ inner, w = .object inner
    · obtain ⟨inner, rfl⟩ := ho
      rcases hw inner rfl with h | ⟨q, hq, hpre, hne, u, hu, hu'⟩
      · cases h
      · refine .inr ⟨key :: q, by simp, List.cons_prefix_cons.mpr ⟨rfl, hpre⟩, ?_, u, ?_, hu'⟩
        · exact fun he => hne (List.cons.inj he).2
        · rw [hat, hu]
    · refine .inr ⟨[key], by simp, List.cons_prefix_cons.mpr ⟨rfl, List.nil_prefix⟩, by simp, w, ?_,
        fun inner he => ho ⟨inner, he⟩⟩
      exact hat []

/-- A path is writable unless it is blocked. -/
theorem writable_iff : Writable path members ↔ ¬ Blocked path members := by
  induction path generalizing members with
  | nil => exact iff_of_false id (not_not_intro (.inl rfl))
  | cons key rest ih =>
    cases rest with
    | nil =>
      refine iff_of_true trivial ?_
      rintro (h | ⟨q, hq, hpre, hne, _⟩)
      · cases h
      · rcases List.prefix_cons_iff.mp hpre with rfl | ⟨t, rfl, ht⟩
        · exact hq rfl
        · rw [List.prefix_nil.mp ht] at hne
          exact hne rfl
    | cons next path =>
      rw [blocked_cons_cons, Writable]
      push Not
      apply forall_congr'
      intro w
      apply imp_congr_right
      intro _
      simp only [ih]

/-- Where the way is blocked, nothing is written, not even the objects on the way. -/
theorem insertAt_of_blocked (h : Blocked path members) : insertAt path v members = members := by
  induction path generalizing members with
  | nil => rfl
  | cons key rest ih =>
    cases rest with
    | nil => exact absurd h (writable_iff.mp trivial)
    | cons next path =>
      obtain ⟨w, hl, hw⟩ := blocked_cons_cons.mp h
      rw [insertAt, hl]
      cases w with
      | object inner =>
        dsimp only
        rw [ih (hw inner rfl), Keyed.put_of_lookup hl]
      | _ => rfl

/-- On the way to what was written stand objects. -/
theorem exists_object_insertAt (h : Writable path members) (hpre : q <+: path) (hne : q ≠ path) :
    ∃ inner, (Value.object (insertAt path v members)).at? q = some (.object inner) := by
  induction q generalizing path members with
  | nil => exact ⟨_, rfl⟩
  | cons key q ih =>
    obtain ⟨rest, rfl⟩ := hpre
    cases hr : q ++ rest with
    | nil => simp_all
    | cons next tail =>
      have hpre : q <+: next :: tail := hr ▸ List.prefix_append q rest
      have hne : q ≠ next :: tail := by
        rw [← hr]
        intro he
        exact hne (congrArg (key :: ·) he)
      rw [List.cons_append, hr] at h ⊢
      rw [insertAt]
      split
      · rw [at?_object_cons, Keyed.lookup_put_self]
        exact ih (writable_nil (by simp)) hpre hne
      · rename_i inner hl
        obtain ⟨_, he, hw⟩ := h _ hl
        cases he
        rw [at?_object_cons, Keyed.lookup_put_self]
        exact ih hw hpre hne
      · rename_i w hw hl
        obtain ⟨inner, rfl, -⟩ := h _ hl
        exact absurd rfl (hw inner)

/-- Keys keep their order, and a new one comes last. -/
theorem keys_prefix_insertAt (path : List String) (v : Value) (before : Keyed Value) :
    Keyed.keys before <+: Keyed.keys (insertAt path v before) := by
  match path with
  | [] => exact List.prefix_refl _
  | [key] => exact Keyed.keys_prefix_put key v before
  | key :: next :: path =>
    rw [insertAt]
    split
    · exact Keyed.keys_prefix_put key _ before
    · exact Keyed.keys_prefix_put key _ before
    · exact List.prefix_refl _

/-- Objects keep their keys in order, if they are not below what is written. -/
theorem keys_prefix_at?_insertAt (hq : ¬ path <+: q) {inner : Keyed Value}
    (h : (Value.object members).at? q = some (.object inner)) :
    ∃ inner', (Value.object (insertAt path v members)).at? q = some (.object inner') ∧
      Keyed.keys inner <+: Keyed.keys inner' := by
  induction path generalizing q members with
  | nil => exact absurd List.nil_prefix hq
  | cons key rest ih =>
    cases q with
    | nil =>
      have he : members = inner := Value.object.inj (Option.some.inj h)
      rw [← he]
      exact ⟨_, rfl, keys_prefix_insertAt _ v members⟩
    | cons other q =>
      by_cases he : other = key
      · subst he
        have hq : ¬ rest <+: q := fun hp => hq (List.cons_prefix_cons.mpr ⟨rfl, hp⟩)
        cases rest with
        | nil => exact absurd List.nil_prefix hq
        | cons next path =>
          rw [at?_object_cons] at h
          obtain ⟨w, hl, hat⟩ := Option.bind_eq_some_iff.mp h
          rw [insertAt, hl]
          cases w with
          | object within =>
            dsimp only
            rw [at?_object_cons, Keyed.lookup_put_self]
            exact ih hq hat
          | _ =>
            refine ⟨inner, ?_, List.prefix_refl _⟩
            rw [at?_object_cons, hl]
            exact hat
      · refine ⟨inner, ?_, List.prefix_refl _⟩
        rw [at?_object_cons, lookup_insertAt_of_ne he, ← at?_object_cons]
        exact h

theorem written_insertAt (h : ¬ Blocked path members) (v : Value) :
    Written path v members (insertAt path v members) where
  held := at?_insertAt_self (writable_iff.mpr h) v
  objects _ hpre hne := exists_object_insertAt (writable_iff.mpr h) hpre hne
  elsewhere _ ha := at?_insertAt_of_apart ha
  order _ _ hq hat := keys_prefix_at?_insertAt hq hat

end Json

namespace Mock

/-- A word for a secret occurs in a name, in whatever letter case. -/
def Suspicious (name : String) : Prop :=
  ∃ word ∈ secretWords, word.toList <:+: Text.lowercase name

theorem suggestsSecret_iff {name : String} : suggestsSecret name = true ↔ Suspicious name := by
  simp only [suggestsSecret, Suspicious, mentions, List.any_eq_true, Text.occurs_iff]

/-- The first name on a path that suggests a secret. -/
def FirstSuspicious (key : String) (path : List String) : Prop :=
  Suspicious key ∧ ∃ before rest, path = before ++ key :: rest ∧ ∀ name ∈ before, ¬ Suspicious name

theorem find?_suggestsSecret_iff {path : List String} {key : String} :
    path.find? suggestsSecret = some key ↔ FirstSuspicious key path := by
  rw [List.find?_eq_some_iff_append]
  simp only [suggestsSecret_iff, FirstSuspicious, Bool.not_eq_true', ← Bool.not_eq_true]

/-- Write a value at a path of an object in place, unless a name on the path suggests a secret. -/
def insertInto (path : List String) (value : Value) : ExceptT Refusal (StateM (Keyed Value)) Unit :=
  match path.find? suggestsSecret with
  | some key => throw ⟨key⟩
  | none => modify (insertAt path value)

/-- The step on the object is the check on the path, with the object kept on refusal. -/
theorem run_insertInto (path : List String) (value : Value) (object : Keyed Value) :
    (insertInto path value).run.run object =
      match path.find? suggestsSecret with
      | some key => (.error ⟨key⟩, object)
      | none => (.ok (), insertAt path value object) := by
  unfold insertInto
  cases path.find? suggestsSecret <;> rfl

/-- In place or not, the same is refused and the same is written. -/
theorem insertChecked_eq (path : List String) (value : Value) (object : Keyed Value) :
    let done := (insertInto path value).run.run object
    insertChecked path value object = done.1.map fun _ => done.2 := by
  rw [run_insertInto, insertChecked]
  cases path.find? suggestsSecret <;> rfl

/-- Writing in place is refused, comes to nothing or is done. -/
theorem insertInto_outcomes (path : List String) (value : Value) (object : Keyed Value) :
    let done := (insertInto path value).run.run object
    insertChecked path value object = done.1.map (fun _ => done.2) ∧
      ((∃ refusal, done.1 = .error refusal) ↔ ∃ name ∈ path, Suspicious name) ∧
      (∀ refusal, done.1 = .error refusal →
        FirstSuspicious refusal.key path ∧ done.2 = object) ∧
      (done.1 = .ok () → Blocked path object → done.2 = object) ∧
      (done.1 = .ok () → ¬ Blocked path object → Written path value object done.2) := by
  intro done
  refine ⟨insertChecked_eq path value object, ?_⟩
  have hdone : done = _ := run_insertInto path value object
  cases hf : path.find? suggestsSecret with
  | some key =>
    rw [hf] at hdone
    have hfirst := find?_suggestsSecret_iff.mp hf
    have hmem := List.mem_of_find?_eq_some hf
    rw [hdone]
    refine ⟨iff_of_true ⟨_, rfl⟩ ⟨key, hmem, hfirst.1⟩, ?_, nofun, nofun⟩
    rintro _ ⟨⟩
    exact ⟨hfirst, rfl⟩
  | none =>
    rw [hf] at hdone
    have hnone : ¬ ∃ name ∈ path, Suspicious name := by
      rintro ⟨name, hname, hs⟩
      exact List.find?_eq_none.mp hf name hname (suggestsSecret_iff.mpr hs)
    rw [hdone]
    refine ⟨iff_of_false nofun hnone, nofun, ?_, ?_⟩
    · exact fun _ hb => insertAt_of_blocked hb
    · exact fun _ hb => written_insertAt hb value

end Mock

end Lifecycle
