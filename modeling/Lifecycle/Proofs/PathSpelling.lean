import Mathlib.Data.Set.Function
import Lifecycle.Proofs.PathInsertion
import Lifecycle.Service.Basic

/-!
# Paths and the names that spell them

Every flattened name spells one path. A path is spelled by exactly one flattened name, unless it is
empty or a name before its last one ends in a backslash, which would turn the dot after it into an
escaped one: then by none.
-/
namespace Lifecycle.Json

/-- No name but the last one ends in a backslash. -/
def Parted (names : List (List Char)) : Prop := ∀ name ∈ names.dropLast, ¬ ['\\'] <:+ name

/-- A path that a flattened name can spell. -/
structure Spellable (path : List String) : Prop where
  nonempty : path ≠ []
  parted : ∀ name ∈ path.dropLast, ¬ ['\\'] <:+ name.toList

theorem parted_map_toList {path : List String} :
    Parted (path.map String.toList) ↔ ∀ name ∈ path.dropLast, ¬ ['\\'] <:+ name.toList := by
  rw [Parted, ← List.map_dropLast, List.forall_mem_map]

variable {c : Char} {cs name rest : List Char} {names : List (List Char)}

theorem parted_cons (hn : names ≠ []) :
    Parted (name :: names) ↔ ¬ ['\\'] <:+ name ∧ Parted names := by
  rw [Parted, List.dropLast_cons_of_ne_nil hn, List.forall_mem_cons]
  rfl

/-! ### The text of a path that was read -/

theorem joinChars_cons (hn : names ≠ []) (name : List Char) :
    joinChars (name :: names) = escapeDots name ++ '.' :: joinChars names := by
  cases names with
  | nil => exact (hn rfl).elim
  | cons next rest => rfl

theorem escapeDots_cons_of_ne (hc : c ≠ '.') (cs : List Char) :
    escapeDots (c :: cs) = c :: escapeDots cs := by
  simp [escapeDots]

theorem joinChars_growFirst (hn : names ≠ []) (c : Char) :
    joinChars (growFirst c names) = escapeDots [c] ++ joinChars names := by
  obtain ⟨name, more, rfl⟩ := List.exists_cons_of_ne_nil hn
  have he : escapeDots (c :: name) = escapeDots [c] ++ escapeDots name := by
    by_cases hc : c = '.'
    · subst hc
      rfl
    · rw [escapeDots_cons_of_ne hc, escapeDots_cons_of_ne hc]
      rfl
  cases more with
  | nil => exact he
  | cons next more =>
    rw [growFirst, joinChars_cons (List.cons_ne_nil _ _), joinChars_cons (List.cons_ne_nil _ _), he,
      List.append_assoc]

/-- Splitting loses nothing, backslashes before dots included. -/
theorem joinChars_splitChars (cs : List Char) : joinChars (splitChars cs) = cs := by
  fun_induction splitChars cs with
  | case1 => rfl
  | case2 rest ih =>
    rw [joinChars_growFirst (splitChars_ne_nil rest), ih]
    rfl
  | case3 rest ih =>
    rw [joinChars_cons (splitChars_ne_nil rest), ih]
    rfl
  | case4 c rest _ hc ih =>
    rw [joinChars_growFirst (splitChars_ne_nil rest), ih, escapeDots_cons_of_ne hc]
    rfl

/-! ### The path of a text that was written -/

/-- A character that is neither a dot nor escapes one belongs to the first name. -/
theorem splitChars_cons (hc : c ≠ '.') (he : c = '\\' → cs.head? ≠ some '.') :
    splitChars (c :: cs) = growFirst c (splitChars cs) := by
  rw [splitChars]
  · rintro rest rfl rfl
    exact he rfl rfl
  · exact hc

theorem escapeDots_ne_nil (c : Char) (cs : List Char) : escapeDots (c :: cs) ≠ [] := by
  by_cases hc : c = '.'
  · subst hc
    simp [escapeDots]
  · simp [escapeDots_cons_of_ne hc]

theorem head?_escapeDots_ne (cs : List Char) : (escapeDots cs).head? ≠ some '.' := by
  fun_cases escapeDots cs with
  | case1 => simp
  | case2 rest => simp
  | case3 c rest hc => simpa using hc

/-- A written name is read as it is, unless a backslash at its end meets a dot. -/
theorem splitChars_escapeDots_append (h : rest.head? = some '.' → ¬ ['\\'] <:+ name) :
    splitChars (escapeDots name ++ rest) = name.foldr growFirst (splitChars rest) := by
  induction name with
  | nil => rfl
  | cons c name ih =>
    have ih := ih fun hr hs => h hr (hs.trans (List.suffix_cons c name))
    by_cases hc : c = '.'
    · subst hc
      exact congrArg (growFirst '.') ih
    · rw [escapeDots_cons_of_ne hc, List.cons_append, splitChars_cons hc, ih, List.foldr_cons]
      rintro rfl
      -- a written name does not start with a dot, so only what comes after it may
      cases name with
      | nil => exact fun hr => h hr (List.suffix_refl _)
      | cons d more =>
        have hne := head?_escapeDots_ne (d :: more)
        cases he : escapeDots (d :: more) with
        | nil => exact (escapeDots_ne_nil d more he).elim
        | cons e written =>
          rw [he] at hne
          exact hne

theorem foldr_growFirst (name first : List Char) (names : List (List Char)) :
    name.foldr growFirst (first :: names) = (name ++ first) :: names := by
  induction name with
  | nil => rfl
  | cons c name ih =>
    rw [List.foldr_cons, ih]
    rfl

/-- Joining loses nothing as long as no backslash runs into a dot that parts names. -/
theorem splitChars_joinChars (hn : names ≠ []) (hp : Parted names) :
    splitChars (joinChars names) = names := by
  induction names with
  | nil => exact (hn rfl).elim
  | cons name names ih =>
    cases names with
    | nil =>
      have hs : splitChars (escapeDots name ++ []) = name.foldr growFirst (splitChars []) :=
        splitChars_escapeDots_append nofun
      rw [List.append_nil] at hs
      rw [joinChars, hs, splitChars, foldr_growFirst, List.append_nil]
    | cons next more =>
      have hne := List.cons_ne_nil next more
      obtain ⟨hname, hmore⟩ := (parted_cons hne).mp hp
      rw [joinChars_cons hne, splitChars_escapeDots_append fun _ => hname, splitChars,
        foldr_growFirst, List.append_nil, ih hne hmore]

/-! ### The names that are read -/

/-- Where the first name has no characters and is not the last one, there is a dot. -/
theorem head?_of_splitChars_eq (hn : names ≠ []) (h : splitChars cs = [] :: names) :
    cs.head? = some '.' := by
  have hg (c : Char) (more : List (List Char)) : growFirst c more ≠ [] :: names := by
    cases more <;> simp [growFirst]
  fun_cases splitChars cs with
  | case1 =>
    rw [splitChars] at h
    exact (hn (List.cons.inj h).2.symm).elim
  | case2 rest =>
    rw [splitChars] at h
    exact (hg _ _ h).elim
  | case3 rest => rfl
  | case4 c rest he hc =>
    rw [splitChars_cons hc] at h
    · exact (hg _ _ h).elim
    · rintro rfl hr
      obtain ⟨more, rfl⟩ := List.head?_eq_some_iff.mp hr
      exact he more rfl rfl

theorem parted_growFirst (hp : Parted names)
    (hc : c = '\\' → ∀ more, names = [] :: more → more = []) : Parted (growFirst c names) := by
  match names with
  | [] => simp [Parted, growFirst]
  | [name] => simp [Parted, growFirst]
  | name :: next :: more =>
    rw [parted_cons (List.cons_ne_nil next more)] at hp
    rw [growFirst, parted_cons (List.cons_ne_nil next more), List.suffix_cons_iff]
    refine ⟨?_, hp.2⟩
    rintro (he | hs)
    · obtain ⟨rfl, rfl⟩ := List.cons.inj he
      cases hc rfl _ rfl
    · exact hp.1 hs

/-- A backslash before a dot is taken for its escape, so no name but the last ends in one. -/
theorem parted_splitChars (cs : List Char) : Parted (splitChars cs) := by
  fun_induction splitChars cs with
  | case1 => simp [Parted]
  | case2 rest ih => exact parted_growFirst ih nofun
  | case3 rest ih => exact (parted_cons (splitChars_ne_nil rest)).mpr ⟨by simp, ih⟩
  | case4 c rest he hc ih =>
    refine parted_growFirst ih ?_
    rintro rfl more hs
    -- otherwise the backslash would stand before a dot
    by_contra hm
    obtain ⟨after, rfl⟩ := List.head?_eq_some_iff.mp (head?_of_splitChars_eq hm hs)
    exact he after rfl rfl

/-! ### Texts and paths -/

theorem toList_splitPath (flattened : String) :
    (splitPath flattened).map String.toList = splitChars flattened.toList := by
  have hid : String.toList ∘ String.ofList = id := funext fun _ => String.toList_ofList
  rw [splitPath, List.map_map, hid, List.map_id]

theorem spellable_splitPath (flattened : String) : Spellable (splitPath flattened) := by
  refine ⟨splitPath_ne_nil flattened, parted_map_toList.mp ?_⟩
  rw [toList_splitPath]
  exact parted_splitChars flattened.toList

theorem joinPath_splitPath (flattened : String) : joinPath (splitPath flattened) = flattened := by
  rw [joinPath, toList_splitPath, joinChars_splitChars, String.ofList_toList]

theorem splitPath_joinPath {path : List String} (h : Spellable path) :
    splitPath (joinPath path) = path := by
  have hn : path.map String.toList ≠ [] := by simpa using h.nonempty
  have hid : String.ofList ∘ String.toList = id := funext fun _ => String.ofList_toList
  rw [splitPath, joinPath, String.toList_ofList,
    splitChars_joinChars hn (parted_map_toList.mpr h.parted), List.map_map, hid, List.map_id]

/-- Flattened names and the paths that can be spelled correspond one to one: what `splitPath` reads
`joinPath` writes, and the other way round. So properties share a path only if they share their wire
name. -/
theorem splitPath_bijOn :
    Set.BijOn splitPath Set.univ {path | Spellable path} ∧
      Set.InvOn joinPath splitPath Set.univ {path | Spellable path} ∧
      ∀ p q : Property, p.path = q.path ↔ p.serializedName = q.serializedName := by
  have hread : Set.LeftInvOn joinPath splitPath Set.univ := fun s _ => joinPath_splitPath s
  have hwritten : Set.RightInvOn joinPath splitPath {path | Spellable path} :=
    fun _ h => splitPath_joinPath h
  have hspelled : Set.MapsTo splitPath Set.univ {path | Spellable path} :=
    fun s _ => spellable_splitPath s
  refine ⟨Set.InvOn.bijOn ⟨hread, hwritten⟩ hspelled fun _ _ => trivial, ⟨hread, hwritten⟩, ?_⟩
  intro p q
  constructor
  · exact fun h => hread.injOn trivial trivial h
  · exact fun h => congrArg splitPath h

/-- A backslash escapes the dot after it, whatever stands in front. -/
example : splitPath "a\\\\.b.c\\" = ["a\\.b", "c\\"] := by decide +kernel

end Lifecycle.Json
