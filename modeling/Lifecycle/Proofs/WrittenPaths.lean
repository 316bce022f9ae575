import Mathlib.Data.List.Count
import Lifecycle.Proofs.ArtifactAccount
import Lifecycle.Proofs.Confinement
import Lifecycle.Proofs.NameSymbols

/-!
# Where artifacts are written

The report goes into the output directory, samples and tests go into two directories in it, under
the names of their groups and methods. Those names may hold slashes, and all but a few other
characters. A name without a slash is that of a file in its directory; one that starts with a slash
is a path of its own, whatever the output directory is; with slashes further on it still leads to
somewhere below that.
-/
namespace Lifecycle

open Text Storage

def Step.written? : Step → Option String
  | .write path _ => some path
  | _ => none

def writtenPaths (steps : List Step) : List String := steps.filterMap Step.written?

def artifactDirectories (out : String) : List String :=
  [out, Path.join out "samples", Path.join out "mock-tests"]

/-- A path is that of a directory of artifacts and a further one of some kind. -/
def Filed (kind : String → Prop) (out path : String) : Prop :=
  ∃ dir ∈ artifactDirectories out, ∃ name, kind name ∧ path = Path.join dir name

/-! ### Written paths -/

theorem writtenPaths_notes (notices : List Notice) : writtenPaths (notices.map .note) = [] := by
  induction notices with
  | nil => rfl
  | cons n rest ih => exact ih

theorem writtenPaths_fileSteps (dir : String) (files : List (String × String)) :
    writtenPaths (fileSteps dir files) = files.map fun f => Path.join dir f.1 := by
  induction files with
  | nil => rfl
  | cons f rest ih => exact congrArg _ ih

theorem writtenPaths_directorySteps (purpose dir : String) (files : List (String × String)) :
    writtenPaths (directorySteps purpose dir files) = files.map fun f => Path.join dir f.1 := by
  cases files with
  | nil => rfl
  | cons f rest => exact writtenPaths_fileSteps dir (f :: rest)

namespace Client

def artifactNames (client : Client) (settings : Settings) : List String :=
  (client.wantedSamples settings).map (·.name) ++ (client.wantedTests settings).map (·.name)

/-- All that is ever written, in the order written: report, samples, tests. -/
theorem writtenPaths_artifacts (client : Client) (settings : Settings) (out : String) :
    writtenPaths (client.artifacts settings out).2 =
      client.reportFiles.map (fun f => Path.join out f.1) ++
        (client.wantedSamples settings).map
          (fun s => Path.join (Path.join out "samples") (s.name ++ ".md")) ++
        (client.wantedTests settings).map
          fun t => Path.join (Path.join out "mock-tests") (t.name ++ ".json") := by
  have happend (front back : List Step) :
      writtenPaths (front ++ back) = writtenPaths front ++ writtenPaths back :=
    List.filterMap_append
  dsimp only [artifacts]
  simp only [happend, Logged.steps, writtenPaths_notes, writtenPaths_fileSteps,
    writtenPaths_directorySteps, value_wanted_sampleFiles, value_wanted_testFiles, List.map_map, List.append_nil]
  simp [writtenPaths, Step.written?, List.filterMap_cons, Function.comp_def]

end Client

/-! ### Names that lead on -/

/-- A name without a dot leads on, with an ending that has one dot. -/
theorem onward_withEnding {name ending : String} (hname : '.' ∉ name.toList)
    (hrel : Path.isAbsolute name = false) (hending : ending.toList.count '.' = 1)
    (hstart : Path.isAbsolute ending = false)
    (hletter : ∃ letter ∈ ending.toList, letter ≠ '/' ∧ letter ≠ '.') :
    Onward (name ++ ending) := by
  obtain ⟨letter, hletter, hsymbol⟩ := hletter
  refine ⟨?_, ?_, ?_⟩
  · unfold Path.isAbsolute at hrel hstart ⊢
    rw [String.toList_append]
    cases hn : name.toList with
    | nil => exact hstart
    | cons c rest =>
      rw [hn] at hrel
      exact hrel
  · intro hup
    obtain ⟨piece, hp, he⟩ := List.mem_map.mp hup
    have hsub := (List.sublist_flatten_of_mem hp).trans
      (flatten_pieces '/' (name ++ ending).toList ▸ List.filter_sublist)
    have hdots := hsub.count_le '.'
    rw [String.toList_append, List.count_append, List.count_eq_zero_of_not_mem hname, hending,
      ← String.toList_ofList (l := piece), he] at hdots
    exact absurd hdots (by decide)
  · have hmem : letter ∈ (pieces '/' (name ++ ending).toList).flatten := by
      rw [flatten_pieces, List.mem_filter, String.toList_append]
      exact ⟨List.mem_append_right _ hletter, by simpa using hsymbol.1⟩
    obtain ⟨piece, hp, hmem⟩ := List.mem_flatten.mp hmem
    have hin : letter ∈ (String.ofList piece).toList := by rwa [String.toList_ofList]
    have hempty : String.ofList piece ≠ "" := by
      intro he
      rw [he] at hin
      cases hin
    have hdot : String.ofList piece ≠ "." := by
      intro he
      rw [he] at hin
      exact hsymbol.2 (List.mem_singleton.mp hin)
    have hpart : String.ofList piece ∈ Path.names (name ++ ending) :=
      List.mem_filter.mpr ⟨List.mem_map_of_mem hp, by simp [hempty, hdot]⟩
    exact List.ne_nil_of_mem hpart

/-! ### Filed paths -/

/-- In every storage, a path that is filed leads to below the output directory. -/
theorem Filed.below {out path : String} (h : Filed Onward out path) {s : Storage}
    {q : List String} (hq : s.Leads path q) : ∃ d, s.Leads out d ∧ isBelow d q = true := by
  obtain ⟨dir, hd, name, ho, rfl⟩ := h
  obtain ⟨inner, hinner, hb⟩ := ho.below hq
  have hnested {d : String} (hd : Plain d) (hl : s.Leads (Path.join out d) inner) :
      ∃ d, s.Leads out d ∧ isBelow d q = true := by
    obtain ⟨outer, houter, hb'⟩ := hd.onward.below hl
    exact ⟨outer, houter, isBelow_trans hb' hb⟩
  simp only [artifactDirectories, List.mem_cons, List.not_mem_nil, or_false] at hd
  rcases hd with rfl | rfl | rfl
  · exact ⟨inner, hinner, hb⟩
  · exact hnested plain_samples hinner
  · exact hnested plain_mockTests hinner

/-- Steps that write to filed paths, carried out as far as they go, change no file elsewhere. -/
theorem changesBelow_of_filed {steps : List Step} {out : String}
    (h : ∀ path ∈ writtenPaths steps, Filed Onward out path) (s : Storage) :
    ChangesBelow out s ((perform steps : StateM Storage _).run s).2 := by
  apply changesBelow_perform
  intro step hstep s t hs
  cases step with
  | note n =>
    cases hs
    exact .refl out s
  | makeDirectory purpose path => exact changesBelow_provideAll _ (toOption_eq_some.mp hs)
  | write path text =>
    have hpath : path ∈ writtenPaths steps := List.mem_filterMap.mpr ⟨_, hstep, rfl⟩
    exact changesBelow_write (fun q hq => (h path hpath).below hq) (toOption_eq_some.mp hs)

/-- A slash in a path makes it one of several parts. -/
theorem slash_not_mem_of_parts {path name : String} (h : Path.parts path = [name]) :
    '/' ∉ path.toList := by
  intro hs
  obtain ⟨front, back, he⟩ := List.append_of_mem hs
  have hlength := congrArg List.length h
  rw [Path.parts, he, pieces_append_cons, List.length_map, List.length_append] at hlength
  have hfront := List.length_pos_of_ne_nil (pieces_ne_nil '/' front)
  have hback := List.length_pos_of_ne_nil (pieces_ne_nil '/' back)
  rw [List.length_singleton] at hlength
  omega

/-- Joining a relative path adds its parts. -/
theorem parts_join_eq {dir path : String} (hdir : dir ≠ "")
    (hlast : (Path.parts dir).getLast? ≠ some "") (hp : Path.isAbsolute path = false) :
    Path.parts (Path.join dir path) = Path.parts dir ++ Path.parts path := by
  obtain ⟨front, hj, hf⟩ := parts_join hdir hp
  rcases hf with hf | hf
  · rw [hj, hf]
  · rw [hf, List.getLast?_concat] at hlast
    exact absurd rfl hlast

theorem directories_in_out : ∀ dir ∈ artifactDirectories "out", dir ≠ "" ∧
    (Path.parts dir).getLast? ≠ some "" ∧ Path.isAbsolute dir = false ∧
    (Path.parts dir).length ≤ 2 := by decide

theorem not_isAbsolute_of_filed {path : String} (h : Filed Plain "out" path) :
    Path.isAbsolute path = false := by
  obtain ⟨dir, hdir, name, hn, rfl⟩ := h
  obtain ⟨hne, _, hrel, _⟩ := directories_in_out dir hdir
  rw [isAbsolute_join hne (not_isAbsolute_plain hn), hrel]

/-- What is filed in one of the two inner directories of `out` has no slash. -/
theorem slash_not_mem_of_filed {d path : String} (hd : d = "samples" ∨ d = "mock-tests")
    (h : Filed Plain "out" (Path.join (Path.join "out" d) path)) : '/' ∉ path.toList := by
  have hinner : Path.join "out" d ∈ artifactDirectories "out" ∧
      (Path.parts (Path.join "out" d)).length = 2 := by
    rcases hd with rfl | rfl <;> decide
  cases hp : Path.isAbsolute path with
  | true =>
    -- an absolute path stays what it is
    have hj : Path.join (Path.join "out" d) path = path := if_pos hp
    rw [hj] at h
    rw [not_isAbsolute_of_filed h] at hp
    cases hp
  | false =>
    obtain ⟨dir, hdir, name, hn, he⟩ := h
    obtain ⟨hne, hlast, _, hshort⟩ := directories_in_out dir hdir
    obtain ⟨hne', hlast', _, _⟩ := directories_in_out _ hinner.1
    have hlength := congrArg (List.length ∘ Path.parts) he
    simp only [Function.comp_apply, parts_join_eq hne' hlast' hp,
      parts_join_eq hne hlast (not_isAbsolute_plain hn), parts_plain hn, List.length_append,
      List.length_singleton, hinner.2] at hlength
    have hpos := List.length_pos_of_ne_nil (parts_ne_nil path)
    obtain ⟨part, hpart⟩ := List.length_eq_one_iff.mp (by omega : (Path.parts path).length = 1)
    exact slash_not_mem_of_parts hpart

/-! ### Artifacts -/

namespace Client

/-- Names of some kind for all files of artifacts file them all. -/
theorem filed_artifacts {client : Client} {settings : Settings} {kind : String → Prop}
    (hplain : ∀ name, Plain name → kind name)
    (hsamples : ∀ s ∈ client.wantedSamples settings, kind (s.name ++ ".md"))
    (htests : ∀ t ∈ client.wantedTests settings, kind (t.name ++ ".json")) (out : String) :
    ∀ path ∈ writtenPaths (client.artifacts settings out).2, Filed kind out path := by
  simp only [writtenPaths_artifacts, List.forall_mem_append, List.forall_mem_map]
  refine ⟨⟨fun f hf => ?_, fun s hs => ?_⟩, fun t ht => ?_⟩
  · exact ⟨out, List.mem_cons_self, _, hplain _ (client.plain_reportFiles f hf), rfl⟩
  · exact ⟨Path.join out "samples", by simp [artifactDirectories], _, hsamples s hs, rfl⟩
  · exact ⟨Path.join out "mock-tests", by simp [artifactDirectories], _, htests t ht, rfl⟩

/-- Under every output directory all artifacts are filed by plain names exactly if no sample and no
test has a slash in its name. -/
theorem filed_artifacts_iff (client : Client) (settings : Settings) :
    (∀ out, ∀ path ∈ writtenPaths (client.artifacts settings out).2, Filed Plain out path) ↔
      ∀ name ∈ client.artifactNames settings, '/' ∉ name.toList := by
  simp only [artifactNames, List.forall_mem_append, List.forall_mem_map]
  constructor
  · intro h
    have h := h "out"
    simp only [writtenPaths_artifacts, List.forall_mem_append, List.forall_mem_map] at h
    obtain ⟨⟨_, hsamples⟩, htests⟩ := h
    constructor
    · intro sample hs hslash
      apply slash_not_mem_of_filed (.inl rfl) (hsamples sample hs)
      rw [String.toList_append]
      exact List.mem_append_left _ hslash
    · intro test ht hslash
      apply slash_not_mem_of_filed (.inr rfl) (htests test ht)
      rw [String.toList_append]
      exact List.mem_append_left _ hslash
  · rintro ⟨hsamples, htests⟩
    exact filed_artifacts (fun _ h => h)
      (fun s hs => plain_withEnding (hsamples s hs) (by decide) (by decide))
      fun t ht => plain_withEnding (htests t ht) (by decide) (by decide)

theorem mem_of_mem_wantedSamples {client : Client} {settings : Settings} {s : OperationSamples}
    (h : s ∈ client.wantedSamples settings) : s ∈ client.allSamples.value := by
  unfold wantedSamples at h
  split at h
  · exact h
  · cases h

theorem mem_of_mem_wantedTests {client : Client} {settings : Settings} {t : Mock.Test}
    (h : t ∈ client.wantedTests settings) : t ∈ (Mock.tests client Seeded.standard).value := by
  unfold wantedTests at h
  split at h
  · exact h
  · cases h

/-- Unless a name starts with a slash, all artifacts lead on from their directories. -/
theorem filed_artifacts_of_relative {client : Client} {settings : Settings}
    (h : ∀ name ∈ client.artifactNames settings, Path.isAbsolute name = false) (out : String) :
    ∀ path ∈ writtenPaths (client.artifacts settings out).2, Filed Onward out path := by
  simp only [artifactNames, List.forall_mem_append, List.forall_mem_map] at h
  refine filed_artifacts (fun _ => Plain.onward) (fun s hs => ?_) (fun t ht => ?_) out
  · exact onward_withEnding (not_dot_mem_name_of_sample (mem_of_mem_wantedSamples hs)) (h.1 s hs)
      (by decide) (by decide) ⟨'m', by decide⟩
  · exact onward_withEnding (not_dot_mem_name_of_test (mem_of_mem_wantedTests ht)) (h.2 t ht)
      (by decide) (by decide) ⟨'n', by decide⟩

end Client

/-- The artifacts of the client of a service are filed by plain names, under every output directory,
exactly if no sample and no test has a slash in its name; none has if there is none in the names of
groups and operations. Unless one of these names starts with a slash, files change only below the
output directory, whatever the storage holds and wherever writing ends. -/
theorem Assembly.artifacts_confined (a : Assembly) (service : Service) (settings : Settings) :
    let client := (a.client service).value
    let names := client.artifactNames settings
    ((∀ out, ∀ path ∈ writtenPaths (client.artifacts settings out).2, Filed Plain out path) ↔
        ∀ name ∈ names, '/' ∉ name.toList) ∧
      (service.Slashless → ∀ name ∈ names, '/' ∉ name.toList) ∧
      ((∀ name ∈ names, Path.isAbsolute name = false) → ∀ out s,
        ChangesBelow out s
          ((perform (client.artifacts settings out).2 : StateM Storage _).run s).2) := by
  intro client names
  refine ⟨client.filed_artifacts_iff settings, fun h => ?_, fun h out s => ?_⟩
  · have hc := a.slashless_client h
    intro name hname
    rcases List.mem_append.mp hname with hname | hname
    · obtain ⟨s, hs, rfl⟩ := List.mem_map.mp hname
      exact hc.sample (Client.mem_of_mem_wantedSamples hs)
    · obtain ⟨t, ht, rfl⟩ := List.mem_map.mp hname
      exact hc.test (Client.mem_of_mem_wantedTests ht)
  · exact changesBelow_of_filed (Client.filed_artifacts_of_relative h out) s

namespace Workshop

theorem slashless_rivals : rivals.Slashless := by decide +kernel

/-- A group whose name is that of a path from the root. -/
def outsiders : Service where
  name := "Workshop"
  schemas := []
  groups :=
    [⟨"/nowhere/tool", [{ operation "get" .get "/tools" [] "Number" with
        examples := [("First", ⟨none, [], []⟩)] }]⟩]

end Workshop

/-- Where no name has a slash, everything stays below the output directory. -/
theorem rivals_stay_below :
    let client := (Workshop.rivals.client Workshop.sampling).value
    Workshop.rivals.Slashless ∧
      (∀ out, ∀ path ∈ writtenPaths (client.artifacts Workshop.sampling out).2,
        Filed Plain out path) ∧
      ∀ out s, ChangesBelow out s
        ((perform (client.artifacts Workshop.sampling out).2 : StateM Storage _).run s).2 := by
  intro client
  obtain ⟨hfiled, hnames, hbelow⟩ := Assembly.artifacts_confined
    (.fresh Workshop.sampling) Workshop.rivals Workshop.sampling
  have hnames := hnames Workshop.slashless_rivals
  exact ⟨Workshop.slashless_rivals, hfiled.mpr hnames,
    hbelow fun name hname => not_isAbsolute_of_no_slash (hnames name hname)⟩

/-- A sample is written far from the output directory, where there is a directory for it. -/
theorem outsiders_written_outside :
    let client := (Workshop.outsiders.client Workshop.sampling).value
    let steps := (client.artifacts Workshop.sampling "out").2
    let s := Storage.empty.put ["/", "nowhere"] .directory
    let s' := ((perform steps : StateM Storage _).run s).2
    "/nowhere/toolGet.md" ∈ writtenPaths steps ∧ ¬ Filed Plain "out" "/nowhere/toolGet.md" ∧
      s.fileAt? ["/", "nowhere", "toolGet.md"] = none ∧
      (s'.fileAt? ["/", "nowhere", "toolGet.md"]).isSome = true ∧
      ∀ d, s'.Leads "out" d → isBelow d ["/", "nowhere", "toolGet.md"] = false := by
  intro client steps s s'
  refine ⟨by decide +kernel, fun h => ?_, by decide +kernel, by decide +kernel, ?_⟩
  · exact absurd (not_isAbsolute_of_filed h) (by decide)
  · intro d hd
    have hout : s'.Leads "out" ["out"] := rfl
    obtain rfl := Except.ok.inj (hout.symm.trans hd)
    decide

end Lifecycle
