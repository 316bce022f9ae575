import Mathlib.Data.List.Perm.Subperm
import Lifecycle.Artifact
import Lifecycle.Proofs.SubUrl

/-!
# Files in a directory

What is found under a directory after steps that succeed. Where nothing was below the place of a
directory, writing files of plain names leaves one file for each name, which holds the last text
that was written under it. What happens at other places does not show.
-/
namespace Lifecycle

open Text

namespace Storage

/-- The storage after a step, if the step succeeds. -/
def after (s : Storage) : Step → Option Storage
  | .note _ => some s
  | .makeDirectory _ path => (s.makeDirectories path).toOption
  | .write path text => (s.write path text).toOption

theorem toOption_eq_some {ε α : Type} {x : Except ε α} {a : α} :
    x.toOption = some a ↔ x = .ok a := by
  cases x <;> simp [Except.toOption]

/-- A step either succeeds, and the others go on from there, or fails and ends the matter. -/
theorem run_perform_cons (step : Step) (rest : List Step) (s : Storage) :
    (∃ t, s.after step = some t ∧ ∃ notices,
      let r := (perform rest : StateM Storage _).run t
      (perform (step :: rest) : StateM Storage _).run s = ((notices ++ r.1.1, r.1.2), r.2)) ∨
    s.after step = none ∧ ∃ failure,
      (perform (step :: rest) : StateM Storage _).run s = (([], .error failure), s) := by
  cases step with
  | note n => exact .inl ⟨s, rfl, [n], rfl⟩
  | makeDirectory purpose path =>
    cases hp : s.makeDirectories path with
    | error fault =>
      refine .inr ⟨by rw [after, hp]; rfl, .directory purpose fault, ?_⟩
      simp [perform, Files.makeDirectories, changeStorage, hp]
      rfl
    | ok t =>
      have hr : (perform (.makeDirectory purpose path :: rest) : StateM Storage _).run s =
          (perform rest : StateM Storage _).run t := by
        simp [perform, Files.makeDirectories, changeStorage, hp]
      exact .inl ⟨t, by rw [after, hp]; rfl, [], hr⟩
  | write path text =>
    cases hp : s.write path text with
    | error fault =>
      refine .inr ⟨by rw [after, hp]; rfl, .unwritten path fault, ?_⟩
      simp [perform, Files.write, changeStorage, hp]
      rfl
    | ok t =>
      have hr : (perform (.write path text :: rest) : StateM Storage _).run s =
          (perform rest : StateM Storage _).run t := by
        simp [perform, Files.write, changeStorage, hp]
      exact .inl ⟨t, by rw [after, hp]; rfl, [], hr⟩

/-- Steps that are carried out to their end have succeeded one by one. -/
theorem foldlM_after_of_perform {steps : List Step} {s s' : Storage} {notices : List Notice}
    (h : (perform steps : StateM Storage _).run s = ((notices, .ok ()), s')) :
    steps.foldlM after s = some s' := by
  induction steps generalizing s notices with
  | nil =>
    cases h
    rfl
  | cons step rest ih =>
    rcases run_perform_cons step rest s with ⟨t, ht, _, hr⟩ | ⟨_, _, hr⟩
    · rw [hr] at h
      injection h with ho hs
      injection ho with _ ho
      rw [List.foldlM_cons, ht]
      exact ih (Prod.ext (Prod.ext rfl ho) hs)
    · rw [hr] at h
      cases h

theorem foldlM_after_append {front back : List Step} {s s' : Storage} :
    (front ++ back).foldlM after s = some s' ↔
      ∃ t, front.foldlM after s = some t ∧ back.foldlM after t = some s' := by
  rw [List.foldlM_append]
  exact Option.bind_eq_some_iff

theorem foldlM_after_notes (notices : List Notice) (s : Storage) :
    (notices.map Step.note).foldlM after s = some s := by
  induction notices with
  | nil => rfl
  | cons n rest ih => exact ih

/-! ### Where paths lead -/

/-- A name that stands for itself in a path. -/
structure Plain (name : String) : Prop where
  noSlash : '/' ∉ name.toList
  not_empty : name ≠ ""
  not_dot : name ≠ "."
  not_up : name ≠ up

theorem plain_of_length {name : String} (h : '/' ∉ name.toList) (hl : 2 < name.length) :
    Plain name := by
  refine ⟨h, ?_, ?_, ?_⟩ <;> rintro rfl <;> exact absurd hl (by decide)

/-- A path leads to a directory. -/
structure Opens (s : Storage) (path : String) (place : List String) : Prop where
  located : s.locate path = .ok place
  directory : s.at? place = some .directory

theorem walk_append (s : Storage) (place front back : List String) :
    s.walk place (front ++ back) = (s.walk place front).bind (s.walk · back) := by
  induction front generalizing place with
  | nil => rfl
  | cons name rest ih =>
    rw [List.cons_append, walk, walk]
    cases s.stepTo place name with
    | error fault => rfl
    | ok q => exact ih q

theorem walk_singleton (s : Storage) (place : List String) (name : String) :
    s.walk place [name] = s.stepTo place name := by
  rw [walk]
  cases s.stepTo place name <;> rfl

/-- A slash at the end of a path leads no further. -/
theorem walk_empty {s : Storage} {place q : List String} (h : s.walk place [""] = .ok q) :
    q = place := by
  rw [walk_singleton, stepTo] at h
  split at h
  · cases h
  · cases h
  · cases h
    rfl

/-- In a directory, a plain name leads one level down and fails only for its length. -/
theorem walk_plain {s : Storage} {place : List String} {name : String} (hn : Plain name)
    (hd : s.at? place = some .directory) :
    s.walk place [name] =
      if nameLimit < name.utf8ByteSize then .error .nameTooLong else .ok (place ++ [name]) := by
  have hu : ¬ (name == up) = true := fun h => hn.not_up (eq_of_beq h)
  have he : ¬ (name.isEmpty || name == ".") = true := by
    rw [Bool.or_eq_true, String.isEmpty_iff, beq_iff_eq, not_or]
    exact ⟨hn.not_empty, hn.not_dot⟩
  rw [walk_singleton, stepTo, hd]
  dsimp only
  rw [if_neg he, if_neg hu]

theorem parts_plain {name : String} (h : Plain name) : Path.parts name = [name] := by
  rw [Path.parts, pieces_of_not_mem h.noSlash, List.map_singleton, String.ofList_toList]

theorem not_isAbsolute_of_no_slash {path : String} (h : '/' ∉ path.toList) :
    Path.isAbsolute path = false := by
  unfold Path.isAbsolute
  cases hl : path.toList with
  | nil => rfl
  | cons c rest =>
    have hc : c ≠ '/' := fun e => h (by rw [hl, e]; exact List.mem_cons_self)
    simpa using hc

theorem not_isAbsolute_plain {name : String} (h : Plain name) : Path.isAbsolute name = false :=
  not_isAbsolute_of_no_slash h.noSlash

/-- A path under a directory is that of the directory, without a slash at its end, then a slash and
the rest. -/
theorem toList_join {out path : String} (ho : out ≠ "") (hp : Path.isAbsolute path = false) :
    ∃ front, (Path.join out path).toList = front ++ '/' :: path.toList ∧
      (out.toList = front ∨ out.toList = front ++ ['/']) := by
  rcases List.eq_nil_or_concat' out.toList with h | ⟨front, c, h⟩
  · exact absurd (String.toList_eq_nil_iff.mp h) ho
  · have hl : out.toList.getLast? = some c := by rw [h, List.getLast?_concat]
    unfold Path.join
    rw [hp, if_neg Bool.false_ne_true, hl]
    by_cases hc : c = '/'
    · subst hc
      refine ⟨front, ?_, .inr h⟩
      change (out ++ path).toList = _
      rw [String.toList_append, h, List.append_assoc]
      rfl
    · refine ⟨out.toList, ?_, .inl rfl⟩
      split
      · rename_i h'
        cases h'
      · rename_i h'
        cases h'
        exact absurd rfl hc
      · rw [String.toList_append, String.toList_append, List.append_assoc]
        rfl

theorem isAbsolute_join {out path : String} (ho : out ≠ "") (hp : Path.isAbsolute path = false) :
    Path.isAbsolute (Path.join out path) = Path.isAbsolute out := by
  obtain ⟨front, hj, hf⟩ := toList_join ho hp
  unfold Path.isAbsolute
  rw [hj]
  rcases hf with rfl | hf
  · cases hl : out.toList with
    | nil => exact absurd (String.toList_eq_nil_iff.mp hl) ho
    | cons c rest => rfl
  · rw [hf]
    cases front <;> rfl

/-- The parts of a path under a directory are those of the directory, without an empty one at its
end, and then its own. -/
theorem parts_join {out path : String} (ho : out ≠ "") (hp : Path.isAbsolute path = false) :
    ∃ front, Path.parts (Path.join out path) = front ++ Path.parts path ∧
      (Path.parts out = front ∨ Path.parts out = front ++ [""]) := by
  obtain ⟨front, hj, hf⟩ := toList_join ho hp
  refine ⟨(pieces '/' front).map String.ofList, ?_, ?_⟩
  · rw [Path.parts, hj, pieces_append_cons, List.map_append]
    rfl
  · rcases hf with rfl | hf
    · exact .inl rfl
    · rw [Path.parts, hf, pieces_append_cons, List.map_append]
      exact .inr rfl

theorem join_ne_empty {out name : String} (ho : out ≠ "") (hn : Plain name) :
    Path.join out name ≠ "" := by
  obtain ⟨front, hj, _⟩ := toList_join ho (not_isAbsolute_plain hn)
  intro he
  rw [he] at hj
  cases front <;> cases hj

theorem locate_eq_ok_iff {s : Storage} {path : String} {place : List String} :
    s.locate path = .ok place ↔ (Char.ofNat 0 ∉ path.toList ∧ path ≠ "" ∧
      path.utf8ByteSize < pathLimit) ∧
      s.walk (if Path.isAbsolute path then [root] else []) (Path.parts path) = .ok place := by
  unfold locate
  by_cases h₁ : Char.ofNat 0 ∈ path.toList
  · simp [h₁]
  · by_cases h₂ : path = ""
    · subst h₂
      simp
    · by_cases h₃ : pathLimit ≤ path.utf8ByteSize
      · have h₄ : ¬ path.utf8ByteSize < pathLimit := Nat.not_lt_of_le h₃
        simp [h₁, h₂, h₃, h₄]
      · simp [h₁, h₂, h₃, Nat.lt_of_not_le h₃]

/-- From a directory that a path leads to, a name leads on as it does from its place. -/
theorem walk_join {s : Storage} {out name : String} {place : List String} (ho : s.Opens out place)
    (hn : Plain name) :
    s.walk (if Path.isAbsolute (Path.join out name) then [root] else [])
      (Path.parts (Path.join out name)) = s.walk place [name] := by
  obtain ⟨⟨_, hne, _⟩, hw⟩ := locate_eq_ok_iff.mp ho.located
  have hrel := not_isAbsolute_plain hn
  obtain ⟨front, hj, hf⟩ := parts_join hne hrel
  rw [hj, parts_plain hn, isAbsolute_join hne hrel, walk_append]
  rcases hf with hf | hf
  · rw [← hf, hw]
    rfl
  · rw [hf, walk_append] at hw
    cases hr : s.walk (if Path.isAbsolute out then [root] else []) front with
    | error fault =>
      rw [hr] at hw
      cases hw
    | ok q =>
      rw [hr] at hw
      rw [walk_empty hw]
      rfl

theorem locate_join {s : Storage} {out name : String} {place : List String} (ho : s.Opens out place)
    (hn : Plain name) {q : List String} (h : s.locate (Path.join out name) = .ok q) :
    q = place ++ [name] := by
  have hw := (locate_eq_ok_iff.mp h).2
  rw [walk_join ho hn, walk_plain hn ho.directory] at hw
  split at hw
  · cases hw
  · cases hw
    rfl

theorem locate_join_ne_noEntry {s : Storage} {out name : String} {place : List String}
    (ho : s.Opens out place) (hn : Plain name) :
    s.locate (Path.join out name) ≠ .error .noEntry := by
  intro h
  have hne : (Path.join out name).isEmpty = false := by
    rw [Bool.eq_false_iff, Ne, String.isEmpty_iff]
    exact join_ne_empty (locate_eq_ok_iff.mp ho.located).1.2.1 hn
  unfold locate at h
  rw [hne, walk_join ho hn, walk_plain hn ho.directory] at h
  split at h
  · cases h
  · rw [if_neg Bool.false_ne_true] at h
    split at h
    · cases h
    · split at h <;> cases h

/-! ### What changes leave alone -/

/-- Every directory stays a directory. -/
def KeepsDirectories (s s' : Storage) : Prop :=
  ∀ place, s.at? place = some .directory → s'.at? place = some .directory

theorem walk_of_keeps {s s' : Storage} (h : KeepsDirectories s s') {place q : List String}
    {names : List String} (hw : s.walk place names = .ok q) : s'.walk place names = .ok q := by
  induction names generalizing place with
  | nil => exact hw
  | cons name rest ih =>
    rw [walk] at hw ⊢
    cases hs : s.stepTo place name with
    | error fault =>
      rw [hs] at hw
      cases hw
    | ok next =>
      -- a step that succeeds starts from a directory
      have hs' : s'.stepTo place name = .ok next := by
        unfold stepTo at hs ⊢
        split at hs
        · cases hs
        · cases hs
        · rename_i hd
          rw [h place hd]
          exact hs
      rw [hs] at hw
      rw [hs']
      exact ih hw

theorem Opens.of_keeps {s s' : Storage} (h : KeepsDirectories s s') {path : String}
    {place : List String} (ho : s.Opens path place) : s'.Opens path place := by
  obtain ⟨hp, hw⟩ := locate_eq_ok_iff.mp ho.located
  exact ⟨locate_eq_ok_iff.mpr ⟨hp, walk_of_keeps h hw⟩, h place ho.directory⟩

theorem lookup_filter_ne {α : Type} {key other : List String} (h : other ≠ key)
    (entries : List (List String × α)) :
    (entries.filter (·.1 != key)).lookup other = entries.lookup other := by
  induction entries with
  | nil => rfl
  | cons e rest ih =>
    obtain ⟨k, entry⟩ := e
    by_cases hk : k = key
    · subst hk
      rw [List.filter_cons_of_neg (by simp), List.lookup_cons, beq_eq_false_iff_ne.mpr h, ih]
    · rw [List.filter_cons_of_pos (by simpa using hk), List.lookup_cons, List.lookup_cons, ih]

theorem at?_put_of_ne {s : Storage} {place other : List String} (h : other ≠ place)
    (entry : Entry) : (s.put place entry).at? other = s.at? other := by
  unfold at? put
  rw [List.lookup_cons, beq_eq_false_iff_ne.mpr h, lookup_filter_ne h]

theorem keeps_put {s : Storage} {place : List String} (h : s.at? place ≠ some .directory)
    (entry : Entry) : KeepsDirectories s (s.put place entry) := by
  intro other hd
  have hne : other ≠ place := by
    rintro rfl
    exact h hd
  rw [at?_put_of_ne hne, hd]

theorem at?_put_directory (s : Storage) (place : List String) :
    (s.put place .directory).at? place = some .directory := by
  unfold at? put
  rw [List.lookup_cons_self]
  split <;> rfl

/-- All that a granted write says: where it went and what changed. -/
theorem write_eq_ok {s t : Storage} {path text : String} (h : s.write path text = .ok t) :
    ∃ place, s.locate path = .ok place ∧ s.at? place ≠ some .directory ∧
      t = s.put place (.file text.toUTF8) := by
  unfold write at h
  cases hp : s.locate path with
  | error fault =>
    rw [hp] at h
    cases h
  | ok place =>
    rw [hp] at h
    refine ⟨place, rfl, ?_⟩
    dsimp only [bind, Except.bind] at h
    split at h
    · cases h
    · rename_i hd
      cases h
      exact ⟨hd, rfl⟩

/-- A path that ends in a plain name ends in no slash. -/
theorem trimSlashes_join {out name : String} (ho : out ≠ "") (hn : Plain name) :
    trimSlashes (Path.join out name) = Path.join out name := by
  obtain ⟨front, hj, _⟩ := toList_join ho (not_isAbsolute_plain hn)
  have hne : name.toList.reverse ≠ [] := by
    rw [Ne, List.reverse_eq_nil_iff, String.toList_eq_nil_iff]
    exact hn.not_empty
  obtain ⟨c, rest, hr⟩ := List.exists_cons_of_ne_nil hne
  have hc : c ≠ '/' := by
    rintro rfl
    apply hn.noSlash
    rw [← List.mem_reverse, hr]
    exact List.mem_cons_self
  have hd : (Path.join out name).toList.reverse.dropWhile (· == '/') =
      (Path.join out name).toList.reverse := by
    rw [hj, List.reverse_append, List.reverse_cons, hr, List.append_assoc, List.cons_append,
      List.dropWhile_cons_of_neg (by simpa using hc)]
  have hn' : (Path.join out name).toList.reverse ≠ [] := by
    rw [Ne, List.reverse_eq_nil_iff, hj]
    simp
  unfold trimSlashes
  dsimp only
  rw [hd]
  split
  · rename_i h
    exact absurd h hn'
  · rw [List.reverse_reverse, String.ofList_toList]

theorem provide_eq {path : String} (ht : trimSlashes path = path) (s : Storage) :
    s.provide path =
      match s.locate path with
      | .error fault => .error fault
      | .ok place =>
        match s.at? place with
        | none => .ok (s.put place .directory)
        | some .directory => .ok s
        | some (.file _) => .error .exists := by
  unfold provide makeDirectory isDirectory
  rw [ht]
  cases s.locate path with
  | error fault => rfl
  | ok place =>
    rcases Option.eq_none_or_eq_some (s.at? place) with hd | ⟨entry, hd⟩
    · simp only [hd, bind, Except.bind]
      rfl
    · cases entry <;> simp only [hd, bind, Except.bind] <;> rfl

/-- Making a directory in one that is there puts it there, unless it is there already. -/
theorem makeDirectories_join {s t : Storage} {out name : String} {place : List String}
    (ho : s.Opens out place) (hn : Plain name)
    (h : s.makeDirectories (Path.join out name) = .ok t) :
    t.Opens (Path.join out name) (place ++ [name]) ∧
      (t = s ∨ s.at? (place ++ [name]) = none ∧ t = s.put (place ++ [name]) .directory) := by
  have hne := (locate_eq_ok_iff.mp ho.located).1.2.1
  have hp := provide_eq (trimSlashes_join hne hn) s
  unfold makeDirectories provideAll at h
  rw [if_neg (by rw [String.isEmpty_iff]; exact join_ne_empty hne hn), hp] at h
  cases hl : s.locate (Path.join out name) with
  | error fault =>
    rw [hl] at h
    dsimp only at h
    split at h
    · rename_i he
      cases he
      exact absurd hl (locate_join_ne_noEntry ho hn)
    · cases h
  | ok q =>
    obtain rfl := locate_join ho hn hl
    rw [hl] at h
    dsimp only at h
    cases hd : s.at? (place ++ [name]) with
    | none =>
      rw [hd] at h
      cases h
      have hk : KeepsDirectories s (s.put (place ++ [name]) .directory) :=
        keeps_put (by rw [hd]; nofun) _
      obtain ⟨hl', hw⟩ := locate_eq_ok_iff.mp hl
      exact ⟨⟨locate_eq_ok_iff.mpr ⟨hl', walk_of_keeps hk hw⟩, at?_put_directory s _⟩,
        .inr ⟨rfl, rfl⟩⟩
    | some entry =>
      rw [hd] at h
      cases entry with
      | file content => cases h
      | directory =>
        cases h
        exact ⟨⟨hl, hd⟩, .inl rfl⟩

/-! ### What is below a place -/

theorem filesUnder_of_locate {s : Storage} {path : String} {place : List String}
    (h : s.locate path = .ok place) :
    s.filesUnder path = s.entries.filterMap (fileBelow? place) := by
  rw [filesUnder, h]

theorem isBelow_append (place : List String) {names : List String} (hn : names ≠ [])
    (hs : startsOutside names = false) : isBelow place (place ++ names) = true := by
  unfold isBelow
  rw [List.drop_left, hs]
  simp [hn]

/-- Below a place: one or more names further, which do not begin by leading out of it. -/
theorem isBelow_iff {place other : List String} :
    isBelow place other = true ↔
      ∃ names, names ≠ [] ∧ startsOutside names = false ∧ other = place ++ names := by
  constructor
  · intro h
    unfold isBelow at h
    rw [Bool.and_eq_true, Bool.and_eq_true, List.isPrefixOf_iff_prefix] at h
    obtain ⟨⟨⟨names, rfl⟩, hn⟩, hs⟩ := h
    rw [List.drop_left] at hn hs
    exact ⟨names, by simpa using hn, by simpa using hs, rfl⟩
  · rintro ⟨names, hn, hs, rfl⟩
    exact isBelow_append place hn hs

/-- Below one name there is nothing of what starts with another. -/
theorem not_isBelow_of_ne (place : List String) {name other : String} (h : name ≠ other)
    (rest : List String) : isBelow (place ++ [name]) (place ++ other :: rest) = false := by
  rw [Bool.eq_false_iff]
  intro hb
  obtain ⟨names, _, _, he⟩ := isBelow_iff.mp hb
  rw [List.append_assoc, List.append_cancel_left_eq] at he
  exact h (List.cons.inj he).1.symm

theorem fileBelow?_of_not_below {place : List String} {e : List String × Entry}
    (h : isBelow place e.1 = false) : fileBelow? place e = none := by
  obtain ⟨other, entry⟩ := e
  cases entry with
  | directory => rfl
  | file content => exact if_neg (by rw [h]; exact Bool.false_ne_true)

theorem fileBelow?_file (place : List String) {name : String} (hn : Plain name)
    (content : ByteArray) :
    fileBelow? place (place ++ [name], .file content) = some (name, content) := by
  have hs : startsOutside [name] = false := by
    have hr : name ≠ root := by
      rintro rfl
      exact hn.noSlash (by decide)
    simp [startsOutside, hn.not_up, hr]
  have hb := isBelow_append place (List.cons_ne_nil name []) hs
  unfold fileBelow?
  dsimp only
  rw [if_pos hb, List.drop_left]
  rfl

/-- Below a place there are files and nothing else, each one name further. -/
structure Holds (s : Storage) (place : List String) (files : List (String × String)) : Prop where
  files : s.entries.filterMap (fileBelow? place) = files.map fun f => (f.1, f.2.toUTF8)
  flat : ∀ e ∈ s.entries, isBelow place e.1 = true →
    ∃ name content, Plain name ∧ e = (place ++ [name], .file content)

theorem mem_put {s : Storage} {place : List String} {entry : Entry} {e : List String × Entry}
    (h : e ∈ (s.put place entry).entries) : e = (place, entry) ∨ e ∈ s.entries := by
  rcases List.mem_cons.mp h with h | h
  · exact .inl h
  · exact .inr (List.mem_of_mem_filter h)

/-- Writing elsewhere leaves the files of a directory as they are. -/
theorem Holds.put_of_not_below {s : Storage} {place other : List String}
    {files : List (String × String)} (h : s.Holds place files) (hb : isBelow place other = false)
    (entry : Entry) : (s.put other entry).Holds place files := by
  constructor
  · rw [← h.files]
    unfold put
    rw [List.filterMap_cons_none (fileBelow?_of_not_below hb), List.filterMap_filter]
    congr 1
    funext e
    by_cases he : e.1 = other
    · rw [if_neg (by simpa using he), fileBelow?_of_not_below (by rwa [he])]
    · rw [if_pos (by simpa using he)]
  · intro e he hbe
    rcases mem_put he with rfl | he
    · rw [hb] at hbe
      cases hbe
    · exact h.flat e he hbe

/-- A file takes the place of an earlier one of its name. -/
theorem Holds.put_file {s : Storage} {place : List String} {files : List (String × String)}
    (h : s.Holds place files) {name : String} (hn : Plain name) (text : String) :
    (s.put (place ++ [name]) (.file text.toUTF8)).Holds place
      ((name, text) :: files.filter (·.1 != name)) := by
  constructor
  · have hrest : (s.entries.filter (·.1 != place ++ [name])).filterMap (fileBelow? place) =
        (s.entries.filterMap (fileBelow? place)).filter (·.1 != name) := by
      rw [List.filterMap_filter, List.filter_filterMap]
      apply List.filterMap_congr
      intro e he
      cases hb : isBelow place e.1 with
      | false => rw [fileBelow?_of_not_below hb, ite_self, Option.filter_none]
      | true =>
        obtain ⟨other, content, hp, rfl⟩ := h.flat e he hb
        rw [fileBelow?_file place hp]
        by_cases ho : other = name
        · rw [if_neg (by simpa using ho), Option.filter_some_neg (by simpa using ho)]
        · rw [if_pos (by simpa using ho), Option.filter_some_pos (by simpa using ho)]
    unfold put
    rw [List.filterMap_cons_some (fileBelow?_file place hn _), hrest, h.files, List.map_cons,
      List.filter_map]
    rfl
  · intro e he hb
    rcases mem_put he with rfl | he
    · exact ⟨name, _, hn, rfl⟩
    · exact h.flat e he hb

/-! ### Writing into a directory -/

/-- The files that are left when files are written one after the other: the last of each name. -/
def latest (files : List (String × String)) : List (String × String) :=
  files.foldl (fun kept f => f :: kept.filter (·.1 != f.1)) []

/-- What steps leave of a storage in which a path opens a directory. -/
theorem holds_writes {s s' : Storage} {dir : String} {place : List String}
    {files kept : List (String × String)} (ho : s.Opens dir place) (hk : s.Holds place kept)
    (hn : ∀ f ∈ files, Plain f.1)
    (h : (fileSteps dir files).foldlM after s = some s') :
    KeepsDirectories s s' ∧
      s'.Holds place (files.foldl (fun kept f => f :: kept.filter (·.1 != f.1)) kept) ∧
      ∀ other others, (∀ name, isBelow other (place ++ [name]) = false) → s.Holds other others →
        s'.Holds other others := by
  induction files generalizing s kept with
  | nil =>
    cases h
    exact ⟨fun _ hd => hd, hk, fun _ _ _ ho => ho⟩
  | cons f rest ih =>
    rw [List.forall_mem_cons] at hn
    rw [fileSteps, List.map_cons, List.foldlM_cons] at h
    obtain ⟨t, ht, h⟩ := Option.bind_eq_some_iff.mp h
    have hw : s.write (Path.join dir f.1) f.2 = .ok t := toOption_eq_some.mp ht
    obtain ⟨q, hl, hd, rfl⟩ := write_eq_ok hw
    obtain rfl := locate_join ho hn.1 hl
    have hkeep := keeps_put hd (.file f.2.toUTF8)
    obtain ⟨hk', hh, hf⟩ := ih (ho.of_keeps hkeep) (hk.put_file hn.1 f.2) hn.2 h
    refine ⟨fun p hp => hk' p (hkeep p hp), hh, ?_⟩
    intro other others hb hothers
    exact hf other others hb (hothers.put_of_not_below (hb f.1) _)

end Storage

end Lifecycle
