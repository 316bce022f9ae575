import Mathlib.Data.List.Nodup

/-!
# Entries at positions

Resources and collections are told apart by position. Changes under distinct positions can be made
in one pass over a list. Of several entries for one position the first wins: `firsts` keeps it, and
keeps none for a position that is taken.
-/
namespace Lifecycle.Indexed

variable {α β : Type}

/-- What `changes` make of the entry at a position: the first one for the position is made. -/
def patch (key : α → Nat) (change : α → β → β) (changes : List α) (i : Nat) (entry : β) : β :=
  (changes.find? (key · == i)).elim entry (change · entry)

theorem patch_of_not_mem {key : α → Nat} {change : α → β → β} {changes : List α} {i : Nat}
    (h : i ∉ changes.map key) (entry : β) : patch key change changes i entry = entry := by
  have hn : changes.find? (key · == i) = none := by
    rw [List.find?_eq_none]
    intro x hx he
    exact h (List.mem_map.mpr ⟨x, hx, eq_of_beq he⟩)
  rw [patch, hn, Option.elim_none]

theorem patch_cons_self {key : α → Nat} {change : α → β → β} (x : α) (rest : List α) (entry : β) :
    patch key change (x :: rest) (key x) entry = change x entry := by
  simp [patch]

theorem patch_cons_of_ne {key : α → Nat} {change : α → β → β} {x : α} {i : Nat} (h : key x ≠ i)
    (rest : List α) (entry : β) :
    patch key change (x :: rest) i entry = patch key change rest i entry := by
  simp [patch, h]

theorem key_of_find? (key : α → Nat) {changes : List α} {i : Nat} {x : α}
    (h : changes.find? (key · == i) = some x) : key x = i := by
  have hk := List.find?_some h
  exact eq_of_beq hk

theorem find?_key_of_nodup {key : α → Nat} {changes : List α} (h : (changes.map key).Nodup) {x : α}
    (hx : x ∈ changes) : changes.find? (key · == key x) = some x := by
  induction changes with
  | nil => exact absurd hx List.not_mem_nil
  | cons y rest ih =>
    rw [List.map_cons, List.nodup_cons] at h
    rcases List.mem_cons.mp hx with rfl | hr
    · simp
    · have hne : key y ≠ key x := fun e => h.1 (e ▸ List.mem_map_of_mem hr)
      rw [List.find?_cons, beq_eq_false_iff_ne.mpr hne]
      exact ih h.2 hr

theorem mem_keys_filter {key : α → Nat} {changes : List α} (h : (changes.map key).Nodup)
    (chosen : α → Bool) {i : Nat} :
    i ∈ (changes.filter chosen).map key ↔ (changes.find? (key · == i)).any chosen = true := by
  rw [List.mem_map, Option.any_eq_true]
  constructor
  · rintro ⟨x, hx, rfl⟩
    rw [List.mem_filter] at hx
    exact ⟨x, find?_key_of_nodup h hx.1, hx.2⟩
  · rintro ⟨x, hx, hc⟩
    exact ⟨x, List.mem_filter.mpr ⟨List.mem_of_find?_eq_some hx, hc⟩, key_of_find? key hx⟩

theorem patch_of_mem {key : α → Nat} {change : α → β → β} {changes : List α}
    (h : (changes.map key).Nodup) {x : α} (hx : x ∈ changes) (entry : β) :
    patch key change changes (key x) entry = change x entry := by
  rw [patch, find?_key_of_nodup h hx, Option.elim_some]

theorem patch_congr {key : α → Nat} {change change' : α → β → β} {changes : List α}
    (h : ∀ x ∈ changes, change x = change' x) :
    patch key change changes = patch key change' changes := by
  funext i entry
  unfold patch
  cases hx : changes.find? (key · == i) with
  | none => rfl
  | some x => exact congrFun (h x (List.mem_of_find?_eq_some hx)) entry

theorem patch_map_keys (key : α → Nat) (change : Nat → β → β) (changes : List α) :
    patch id change (changes.map key) = patch key (fun x => change (key x)) changes := by
  funext i entry
  unfold patch
  rw [List.find?_map]
  change Option.elim (Option.map key (changes.find? (key · == i))) _ _ = _
  cases changes.find? (key · == i) <;> rfl

/-- Two rounds of changes at the same positions are one. -/
theorem mapIdx_patch_patch (key : α → Nat) (change next : α → β → β) (changes : List α)
    (entries : List β) :
    (entries.mapIdx (patch key change changes)).mapIdx (patch key next changes) =
      entries.mapIdx (patch key (fun x entry => next x (change x entry)) changes) := by
  rw [List.mapIdx_mapIdx]
  congr 1
  funext i entry
  unfold patch
  change Option.elim _ (Option.elim _ _ _) _ = _
  cases changes.find? (key · == i) <;> rfl

/-- Changes at different positions can be made in any order. -/
theorem mapIdx_patch_comm {key : α → Nat} {change : α → β → β} {front back : List α}
    (h : (front.map key).Disjoint (back.map key)) (entries : List β) :
    (entries.mapIdx (patch key change front)).mapIdx (patch key change back) =
      (entries.mapIdx (patch key change back)).mapIdx (patch key change front) := by
  rw [List.mapIdx_mapIdx, List.mapIdx_mapIdx]
  congr 1
  funext i entry
  rw [Function.comp_apply, Function.comp_apply]
  by_cases hf : i ∈ front.map key
  · have hb : i ∉ back.map key := fun hb => h hf hb
    rw [patch_of_not_mem hb, patch_of_not_mem hb]
  · rw [patch_of_not_mem hf, patch_of_not_mem hf]

/-- Changes under distinct positions are made independently of each other. -/
theorem foldl_modify_eq_mapIdx {key : α → Nat} {change : α → β → β} {changes : List α}
    (h : (changes.map key).Nodup) (entries : List β) :
    changes.foldl (fun entries x => entries.modify (key x) (change x)) entries =
      entries.mapIdx (patch key change changes) := by
  induction changes generalizing entries with
  | nil =>
    rw [List.foldl_nil]
    symm
    rw [List.mapIdx_eq_iff]
    intro i
    change entries[i]? = entries[i]?.map id
    rw [Option.map_id_fun, id]
  | cons x rest ih =>
    rw [List.map_cons, List.nodup_cons] at h
    rw [List.foldl_cons, ih h.2]
    apply List.ext_getElem?
    intro i
    rw [List.getElem?_mapIdx, List.getElem?_mapIdx, List.getElem?_modify]
    by_cases hi : key x = i
    · subst hi
      have hp : patch key change rest (key x) = id := funext (patch_of_not_mem h.1)
      have hc : patch key change (x :: rest) (key x) = change x := funext (patch_cons_self x rest)
      simp [hp, hc]
    · have hc : patch key change (x :: rest) i = patch key change rest i :=
        funext (patch_cons_of_ne hi rest)
      simp [hi, hc]

/-- Changes at one position are one change. -/
theorem foldl_modify_same (change : α → β → β) (changes : List α) (position : Nat)
    (entries : List β) :
    changes.foldl (fun entries x => entries.modify position (change x)) entries =
      entries.modify position fun entry => changes.foldl (fun entry x => change x entry) entry := by
  induction changes generalizing entries with
  | nil => exact (List.modify_id position entries).symm
  | cons x rest ih =>
    rw [List.foldl_cons, ih, List.modify_modify_eq]
    rfl

/-- Steps that agree as long as an invariant holds, and that keep it. -/
theorem foldl_eq_of_invariant {P : β → Prop} {f g : β → α → β} {l : List α}
    (h : ∀ b, P b → ∀ x ∈ l, f b x = g b x ∧ P (g b x)) {b : β} (hb : P b) :
    l.foldl f b = l.foldl g b ∧ P (l.foldl g b) := by
  induction l generalizing b with
  | nil => exact ⟨rfl, hb⟩
  | cons x rest ih =>
    have hx := h b hb x List.mem_cons_self
    rw [List.foldl_cons, List.foldl_cons, hx.1]
    exact ih (fun b hb y hy => h b hb y (List.mem_cons_of_mem x hy)) hx.2

/-- A change does not show in what it keeps. -/
theorem map_modify_of_eq {γ : Type} {view : β → γ} {change : β → β}
    (h : ∀ entry, view (change entry) = view entry) (position : Nat) (entries : List β) :
    (entries.modify position change).map view = entries.map view := by
  apply List.ext_getElem?
  intro i
  rw [List.getElem?_map, List.getElem?_map, List.getElem?_modify]
  cases entries[i]? with
  | none => rfl
  | some entry => by_cases hi : position = i <;> simp [hi, h]

theorem map_mapIdx_patch_of_eq {γ : Type} {view : β → γ} {key : α → Nat} {change : α → β → β}
    (h : ∀ x entry, view (change x entry) = view entry) (changes : List α) (entries : List β) :
    (entries.mapIdx (patch key change changes)).map view = entries.map view := by
  apply List.ext_getElem?
  intro i
  rw [List.getElem?_map, List.getElem?_map, List.getElem?_mapIdx, Option.map_map]
  congr 1
  funext entry
  change view (patch key change changes i entry) = view entry
  unfold patch
  cases changes.find? (key · == i) with
  | none => rfl
  | some x => exact h x entry

/-- The first entry of each key, in order; none for keys that are taken. -/
def firsts (key : α → Nat) (taken : Nat → Bool) : List α → List α
  | [] => []
  | x :: rest =>
    if taken (key x) then firsts key taken rest
    else x :: firsts key (fun i => key x == i || taken i) rest

variable {key : α → Nat} {taken taken' : Nat → Bool}

/-- The first of each key that was not taken before. -/
theorem find?_firsts (i : Nat) (entries : List α) :
    (firsts key taken entries).find? (key · == i) =
      if taken i then none else entries.find? (key · == i) := by
  induction entries generalizing taken with
  | nil => simp [firsts]
  | cons x rest ih =>
    by_cases hx : taken (key x) = true
    · rw [firsts, if_pos hx, ih]
      by_cases hi : key x = i
      · subst hi
        simp [hx]
      · simp [hi]
    · rw [firsts, if_neg hx]
      by_cases hi : key x = i
      · subst hi
        simp [hx]
      · have hb : (key x == i) = false := beq_eq_false_iff_ne.mpr hi
        rw [List.find?_cons, List.find?_cons, hb, ih, hb, Bool.false_or]

theorem mem_keys_firsts {i : Nat} {entries : List α} :
    i ∈ (firsts key taken entries).map key ↔ taken i = false ∧ i ∈ entries.map key := by
  have mem_iff (l : List α) : i ∈ l.map key ↔ (l.find? (key · == i)).isSome = true := by
    rw [List.find?_isSome, List.mem_map]
    simp only [beq_iff_eq]
  rw [mem_iff, mem_iff, find?_firsts]
  cases taken i <;> simp

theorem nodup_keys_firsts (entries : List α) : ((firsts key taken entries).map key).Nodup := by
  induction entries generalizing taken with
  | nil => exact List.nodup_nil
  | cons x rest ih =>
    rw [firsts]
    split
    · exact ih
    · rw [List.map_cons, List.nodup_cons]
      refine ⟨?_, ih⟩
      intro h
      have hf := (mem_keys_firsts.mp h).1
      simp at hf

theorem firsts_subset (entries : List α) : firsts key taken entries ⊆ entries := by
  induction entries generalizing taken with
  | nil => exact List.Subset.refl []
  | cons x rest ih =>
    rw [firsts]
    split
    · exact List.subset_cons_of_subset x ih
    · exact List.cons_subset_cons x ih

/-- What comes later only finds what is left. -/
theorem firsts_append (front back : List α) :
    firsts key taken (front ++ back) =
      firsts key taken front ++
        firsts key (fun i => ((firsts key taken front).map key).contains i || taken i) back := by
  induction front generalizing taken with
  | nil => simp [firsts]
  | cons x rest ih =>
    rw [List.cons_append, firsts, firsts]
    split
    · exact ih
    · rw [ih, List.cons_append]
      congr 3
      funext i
      rw [List.map_cons, List.contains_cons, Bool.beq_comm]
      cases i == key x <;> simp

/-- More keys may be taken, as long as none of the keys that are found is among them. -/
theorem firsts_congr {entries : List α} (more : ∀ i, taken i = true → taken' i = true)
    (free : ∀ i ∈ (firsts key taken entries).map key, taken' i = false) :
    firsts key taken' entries = firsts key taken entries := by
  -- what is found first is taken in both runs from then on, so both sets grow alike
  induction entries generalizing taken taken' with
  | nil => rfl
  | cons x rest ih =>
    by_cases hx : taken (key x) = true
    · rw [firsts, if_pos hx] at free
      rw [firsts, if_pos (more _ hx), firsts, if_pos hx]
      exact ih more free
    · rw [firsts, if_neg hx] at free
      have hx' : taken' (key x) = false := free (key x) (by simp)
      rw [firsts, if_neg (by simp [hx']), firsts, if_neg hx]
      congr 1
      apply ih
      · intro i hi
        rw [Bool.or_eq_true] at hi ⊢
        exact hi.imp_right (more i)
      · intro i hi
        have hn := (mem_keys_firsts.mp hi).1
        rw [Bool.or_eq_false_iff] at hn ⊢
        exact ⟨hn.1, free i (by rw [List.map_cons]; exact List.mem_cons_of_mem _ hi)⟩

/-! ### Positions of entries -/

/-- Positions below a length, in order and each once. -/
structure Increasing (length : Nat) (positions : List Nat) : Prop where
  sorted : positions.Pairwise (· < ·)
  below : ∀ j ∈ positions, j < length

theorem increasing_positions (chosen : α × Nat → Bool) (entries : List α) :
    Increasing entries.length ((entries.zipIdx.filter chosen).map (·.2)) := by
  have hs : ((entries.zipIdx.filter chosen).map (·.2)).Sublist (List.range' 0 entries.length) := by
    rw [← List.zipIdx_map_snd]
    exact (List.filter_sublist).map _
  constructor
  · exact List.Pairwise.sublist hs List.pairwise_lt_range'
  · intro j hj
    have hr := List.mem_range'_1.mp (hs.subset hj)
    omega

theorem mem_positions {chosen : α → Bool} {entries : List α} {j : Nat} :
    j ∈ (entries.zipIdx.filter fun p => chosen p.1).map (·.2) ↔
      ∃ entry, entries[j]? = some entry ∧ chosen entry = true := by
  simp only [List.mem_map, List.mem_filter, Prod.exists, List.mk_mem_zipIdx_iff_getElem?]
  constructor
  · rintro ⟨entry, _, h, rfl⟩
    exact ⟨entry, h⟩
  · rintro ⟨entry, h⟩
    exact ⟨entry, j, h, rfl⟩

/-- Looking up the positions of chosen entries gives these entries. -/
theorem filterMap_getElem?_range (chosen : β → Bool) (entries : List β) :
    ((List.range entries.length).filter fun i => entries[i]?.any chosen).filterMap (entries[·]?) =
      entries.filter chosen := by
  induction entries with
  | nil => rfl
  | cons entry rest ih =>
    have hr : ((List.range rest.length).filter fun i => rest[i]?.any chosen).filterMap
        (fun i => (entry :: rest)[i + 1]?) = rest.filter chosen := ih
    rw [List.length_cons, List.range_succ_eq_map, List.filter_cons, List.filter_map,
      List.filter_cons, ← hr]
    cases h : chosen entry with
    | true => simp [h, List.filterMap_map, Function.comp_def]
    | false => simp [h, List.filterMap_map, Function.comp_def]

/-- Positions of the chosen entries, in whatever order, lead to these entries. -/
theorem perm_filter_of_positions {chosen : β → Bool} {entries : List β} {positions : List Nat}
    (hn : positions.Nodup) (hm : ∀ i, i ∈ positions ↔ entries[i]?.any chosen = true) :
    (positions.filterMap (entries[·]?)).Perm (entries.filter chosen) := by
  rw [← filterMap_getElem?_range]
  apply List.Perm.filterMap
  rw [List.perm_ext_iff_of_nodup hn (List.nodup_range.filter _)]
  intro i
  rw [hm, List.mem_filter, List.mem_range, iff_and_self, Option.any_eq_true]
  rintro ⟨entry, he, _⟩
  exact (List.getElem?_eq_some_iff.mp he).1

end Lifecycle.Indexed
