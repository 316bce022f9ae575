import Lifecycle.Proofs.Filing

/-!
# Changes below a directory

Steps that only write below a directory change no file elsewhere, whatever the storage holds and
wherever the steps stop. To write below a directory is to follow names from it of which none leads
up and at least one leads on; directories may be made anywhere, for that no file is touched.
-/
namespace Lifecycle.Storage

open Text

/-- The content of the file at a place. -/
def fileAt? (s : Storage) (place : List String) : Option ByteArray :=
  match s.at? place with
  | some (.file content) => some content
  | _ => none

/-- A path leads to a place; the empty path stays in the working directory. -/
def Leads (s : Storage) (path : String) (place : List String) : Prop :=
  s.walk (if Path.isAbsolute path then [root] else []) (Path.parts path) = .ok place

/-- Directories stay directories, and files change only below where a path leads. -/
structure ChangesBelow (path : String) (s s' : Storage) : Prop where
  directories : KeepsDirectories s s'
  files : ∀ place, s'.fileAt? place ≠ s.fileAt? place →
    ∃ d, s'.Leads path d ∧ isBelow d place = true

/-- A path that leads on from where it is followed: not from the root, never up, and to a name. -/
structure Onward (path : String) : Prop where
  relative : Path.isAbsolute path = false
  not_up : up ∉ Path.parts path
  named : Path.names path ≠ []

variable {s s' t : Storage} {path : String}

theorem Plain.onward {name : String} (h : Plain name) : Onward name := by
  refine ⟨not_isAbsolute_plain h, ?_, ?_⟩
  · rw [parts_plain h, List.mem_singleton]
    exact h.not_up.symm
  · rw [Path.names, parts_plain h, List.filter_cons_of_pos]
    · exact List.cons_ne_nil _ _
    · simp [h.not_empty, h.not_dot]

theorem Leads.of_keeps (h : KeepsDirectories s s') {place : List String} (hl : s.Leads path place) :
    s'.Leads path place :=
  walk_of_keeps h hl

/-! ### Frames -/

theorem ChangesBelow.refl (path : String) (s : Storage) : ChangesBelow path s s :=
  ⟨fun _ h => h, fun _ h => absurd rfl h⟩

theorem ChangesBelow.trans (h : ChangesBelow path s t) (h' : ChangesBelow path t s') :
    ChangesBelow path s s' := by
  refine ⟨fun place hd => h'.directories place (h.directories place hd), fun place hne => ?_⟩
  by_cases ht : s'.fileAt? place = t.fileAt? place
  · obtain ⟨d, hd, hb⟩ := h.files place (ht ▸ hne)
    exact ⟨d, hd.of_keeps h'.directories, hb⟩
  · exact h'.files place ht

theorem changesBelow_of_same_files (path : String) (hd : KeepsDirectories s s')
    (hf : ∀ place, s'.fileAt? place = s.fileAt? place) : ChangesBelow path s s' :=
  ⟨hd, fun place hne => absurd (hf place) hne⟩

theorem fileAt?_put_of_ne {place other : List String} (h : other ≠ place) (entry : Entry) :
    (s.put place entry).fileAt? other = s.fileAt? other := by
  rw [fileAt?, fileAt?, at?_put_of_ne h]

/-! ### Making directories -/

theorem changesBelow_makeDirectory {directory : String} (h : s.makeDirectory directory = .ok t) :
    ChangesBelow path s t := by
  unfold makeDirectory at h
  cases hl : s.locate (trimSlashes directory) with
  | error fault =>
    rw [hl] at h
    cases h
  | ok place =>
    rw [hl] at h
    dsimp only [bind, Except.bind] at h
    split at h
    · cases h
    · rename_i hnone
      cases h
      refine changesBelow_of_same_files path (keeps_put (by rw [hnone]; nofun) _) fun other => ?_
      by_cases ho : other = place
      · subst ho
        rw [fileAt?, fileAt?, at?_put_directory, hnone]
      · exact fileAt?_put_of_ne ho _

theorem changesBelow_provide {directory : String} (h : s.provide directory = .ok t) :
    ChangesBelow path s t := by
  unfold provide at h
  split at h
  · rename_i hm
    cases h
    exact changesBelow_makeDirectory hm
  · split at h
    · cases h
      exact .refl path s
    · cases h

/-- Making directories changes no file at all, whatever the path. -/
theorem changesBelow_provideAll (depth : Nat) {directory : String}
    (h : provideAll depth s directory = .ok t) : ChangesBelow path s t := by
  induction depth generalizing directory t with
  | zero => exact changesBelow_provide h
  | succ depth ih =>
    unfold provideAll at h
    split at h
    · cases h
      exact .refl path s
    · split at h
      · split at h
        · rename_i parent _
          cases hp : provideAll depth s parent with
          | error fault =>
            rw [hp] at h
            cases h
          | ok u =>
            rw [hp] at h
            exact (ih hp).trans (changesBelow_provide h)
        · cases h
      · exact changesBelow_provide h

/-! ### Following names -/

/-- Names that do not lead up lead on by those among them that name something. -/
theorem walk_eq_append {place q names : List String} (hn : up ∉ names)
    (h : s.walk place names = .ok q) :
    q = place ++ names.filter fun name => !name.isEmpty && name != "." := by
  induction names generalizing place with
  | nil =>
    cases h
    exact (List.append_nil _).symm
  | cons name rest ih =>
    rw [List.mem_cons, not_or] at hn
    have hup : ¬ (name == up) = true := fun he => hn.1 (eq_of_beq he).symm
    rw [walk, stepTo, if_neg hup] at h
    split at h
    · cases h
    · cases h
    · split at h
      · rename_i hskip
        rw [ih hn.2 h, List.filter_cons_of_neg]
        rw [bne, ← Bool.not_or, hskip]
        exact Bool.false_ne_true
      · rename_i hkeep
        split at h
        · cases h
        · rw [ih hn.2 h, List.filter_cons_of_pos (by simpa using hkeep), List.append_assoc]
          rfl

/-- Names can only be followed from a directory. -/
theorem directory_of_walk {place q names : List String} (hn : names ≠ [])
    (h : s.walk place names = .ok q) : s.at? place = some .directory := by
  cases names with
  | nil => exact absurd rfl hn
  | cons name rest =>
    rw [walk, stepTo] at h
    split at h
    · cases h
    · cases h
    · assumption

theorem parts_ne_nil (path : String) : Path.parts path ≠ [] := by
  rw [Path.parts, Ne, List.map_eq_nil_iff]
  exact pieces_ne_nil '/' path.toList

/-- A relative path is followed from where the directory before it leads. -/
theorem leads_join {dir : String} {q : List String} (hp : Path.isAbsolute path = false)
    (h : s.Leads (Path.join dir path) q) :
    ∃ d, s.Leads dir d ∧ s.walk d (Path.parts path) = .ok q := by
  by_cases hdir : dir = ""
  · subst hdir
    have hj : Path.join "" path = path := by
      rw [Path.join, hp]
      rfl
    rw [Leads, hj, hp] at h
    exact ⟨[], rfl, h⟩
  · obtain ⟨front, hj, hf⟩ := parts_join hdir hp
    rw [Leads, isAbsolute_join hdir hp, hj, walk_append] at h
    unfold Leads
    cases hw : s.walk (if Path.isAbsolute dir then [root] else []) front with
    | error fault =>
      rw [hw] at h
      cases h
    | ok d =>
      rw [hw] at h
      refine ⟨d, ?_, h⟩
      rcases hf with hf | hf
      · rw [hf, hw]
      · have hd := directory_of_walk (parts_ne_nil path) h
        rw [hf, walk_append, hw]
        change s.walk d [""] = .ok d
        rw [walk_singleton, stepTo, hd]
        rfl

/-- Splitting a path never yields the mark of the root. -/
theorem root_not_mem_parts (path : String) : root ∉ Path.parts path := by
  intro h
  obtain ⟨piece, hp, he⟩ := List.mem_map.mp h
  have hslash : '/' ∈ piece := by
    rw [← String.toList_ofList (l := piece), he]
    decide
  have hmem := List.mem_flatten_of_mem hp hslash
  rw [flatten_pieces, List.mem_filter] at hmem
  exact absurd hmem.2 (by decide)

theorem isBelow_trans {a b c : List String} (hab : isBelow a b = true) (hbc : isBelow b c = true) :
    isBelow a c = true := by
  obtain ⟨front, hf, hs, rfl⟩ := isBelow_iff.mp hab
  obtain ⟨back, hb, _, rfl⟩ := isBelow_iff.mp hbc
  rw [List.append_assoc]
  refine isBelow_append a (List.append_ne_nil_of_left_ne_nil hf back) ?_
  cases front with
  | nil => exact absurd rfl hf
  | cons name rest => exact hs

/-- What a directory and a path onward lead to is below the directory. -/
theorem Onward.below {dir : String} (ho : Onward path) {q : List String}
    (h : s.Leads (Path.join dir path) q) : ∃ d, s.Leads dir d ∧ isBelow d q = true := by
  obtain ⟨d, hd, hw⟩ := leads_join ho.relative h
  refine ⟨d, hd, ?_⟩
  rw [walk_eq_append ho.not_up hw]
  refine isBelow_append d ho.named ?_
  obtain ⟨name, rest, hn⟩ := List.exists_cons_of_ne_nil ho.named
  have hmem : name ∈ Path.parts path :=
    List.mem_of_mem_filter (hn ▸ List.mem_cons_self : name ∈ Path.names path)
  have hup : name ≠ up := fun he => ho.not_up (he ▸ hmem)
  have hroot : name ≠ root := fun he => root_not_mem_parts path (he ▸ hmem)
  change startsOutside (Path.names path) = false
  rw [hn]
  simp [startsOutside, hup, hroot]

/-! ### Writing -/

/-- A file that is written below a directory changes nothing else. -/
theorem changesBelow_write {file text : String}
    (hb : ∀ q, s.Leads file q → ∃ d, s.Leads path d ∧ isBelow d q = true)
    (h : s.write file text = .ok t) : ChangesBelow path s t := by
  obtain ⟨q, hl, hd, rfl⟩ := write_eq_ok h
  obtain ⟨d, hlead, hbelow⟩ := hb q (locate_eq_ok_iff.mp hl).2
  have hkeep := keeps_put hd (.file text.toUTF8)
  refine ⟨hkeep, fun place hne => ?_⟩
  by_cases hp : place = q
  · subst hp
    exact ⟨d, hlead.of_keeps hkeep, hbelow⟩
  · exact absurd (fileAt?_put_of_ne hp _) hne

/-! ### Steps -/

/-- Steps of which each changes files only below a path do so together, as far as they go. -/
theorem changesBelow_perform {steps : List Step}
    (h : ∀ step ∈ steps, ∀ s t, after s step = some t → ChangesBelow path s t) (s : Storage) :
    ChangesBelow path s ((perform steps : StateM Storage _).run s).2 := by
  induction steps generalizing s with
  | nil => exact .refl path s
  | cons step rest ih =>
    rw [List.forall_mem_cons] at h
    rcases run_perform_cons step rest s with ⟨t, ht, _, hr⟩ | ⟨_, _, hr⟩
    · rw [hr]
      exact (h.1 s t ht).trans (ih h.2 t)
    · rw [hr]
      exact .refl path s

end Lifecycle.Storage
