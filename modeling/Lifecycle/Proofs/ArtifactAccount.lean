import Mathlib.Data.List.Induction
import Mathlib.Data.List.Nodup
import Lifecycle.Proofs.Filing
import Lifecycle.Proofs.Sequence

/-!
# Which artifacts are kept

The summary counts samples and tests, the directories hold files. Files are told apart by their
names alone, which run the name of a group and that of an operation together, and a file that is
written later takes the place of an earlier one of its name. Hence in an empty directory all
artifacts are kept exactly when the names of the samples differ, and so do those of the tests.
-/
namespace Lifecycle

namespace Storage

/-! ### The latest files -/

theorem latest_concat (files : List (String × String)) (f : String × String) :
    latest (files ++ [f]) = f :: (latest files).filter (·.1 != f.1) := by
  rw [latest, List.foldl_append]
  rfl

theorem mem_of_mem_latest {files : List (String × String)} {f : String × String}
    (h : f ∈ latest files) : f ∈ files := by
  induction files using List.reverseRecOn with
  | nil => exact h
  | append_singleton front g ih =>
    rw [latest_concat] at h
    rw [List.mem_append]
    rcases List.mem_cons.mp h with rfl | h
    · exact .inr (List.mem_singleton_self f)
    · exact .inl (ih (List.mem_of_mem_filter h))

/-- Of each name one file is left. -/
theorem nodup_names_latest (files : List (String × String)) :
    ((latest files).map (·.1)).Nodup := by
  induction files using List.reverseRecOn with
  | nil => exact List.nodup_nil
  | append_singleton front f ih =>
    rw [latest_concat, List.map_cons, List.nodup_cons]
    constructor
    · intro hf
      obtain ⟨g, hg, he⟩ := List.mem_map.mp hf
      have hne := (List.mem_filter.mp hg).2
      rw [he, bne_self_eq_false] at hne
      cases hne
    · exact ih.sublist (List.filter_sublist.map _)

/-- Nothing is lost of files whose names differ. -/
theorem latest_of_nodup {files : List (String × String)} (h : (files.map (·.1)).Nodup) :
    latest files = files.reverse := by
  induction files using List.reverseRecOn with
  | nil => rfl
  | append_singleton front f ih =>
    rw [List.map_append, List.nodup_append] at h
    obtain ⟨hfront, _, hne⟩ := h
    have hkeep : ∀ g ∈ front.reverse, (g.1 != f.1) = true := by
      intro g hg
      have := hne g.1 (List.mem_map_of_mem (List.mem_reverse.mp hg)) f.1
        (List.mem_map_of_mem (List.mem_singleton_self f))
      simpa using this
    rw [latest_concat, ih hfront, List.filter_eq_self.mpr hkeep, List.reverse_append]
    rfl

/-- No file is written over exactly if no two of them share a name. -/
theorem length_latest_iff {files : List (String × String)} :
    (latest files).length = files.length ↔ (files.map (·.1)).Nodup := by
  constructor
  · intro h
    have hsub : (latest files).map (·.1) ⊆ files.map (·.1) :=
      List.map_subset _ fun _ => mem_of_mem_latest
    have hperm := ((nodup_names_latest files).subperm hsub).perm_of_length_le
      (by rw [List.length_map, List.length_map, h])
    exact hperm.nodup_iff.mp (nodup_names_latest files)
  · intro h
    rw [latest_of_nodup h, List.length_reverse]

/-! ### Names of files -/

theorem plain_withEnding {name ending : String} (h : '/' ∉ name.toList)
    (he : '/' ∉ ending.toList) (hl : 2 < ending.length) : Plain (name ++ ending) := by
  apply plain_of_length
  · rw [String.toList_append, List.mem_append, not_or]
    exact ⟨h, he⟩
  · rw [String.length_append]
    omega

theorem plain_samples : Plain "samples" := plain_of_length (by decide) (by decide)

theorem plain_mockTests : Plain "mock-tests" := plain_of_length (by decide) (by decide)

theorem nodup_withEnding (ending : String) (names : List String) :
    (names.map (· ++ ending)).Nodup ↔ names.Nodup := by
  refine List.nodup_map_iff fun a b h => ?_
  have h : a.toList ++ ending.toList = b.toList ++ ending.toList := by
    rw [← String.toList_append, ← String.toList_append]
    exact congrArg String.toList h
  exact String.toList_inj.mp (List.append_cancel_right h)

/-! ### One directory -/

/-- A path leads to a directory, and nothing lies below it. -/
def IsEmptyDirectory (s : Storage) (path : String) : Prop :=
  ∃ place, s.Opens path place ∧ ∀ e ∈ s.entries, isBelow place e.1 = false

theorem holds_nil {s : Storage} {place : List String}
    (h : ∀ e ∈ s.entries, isBelow place e.1 = false) : s.Holds place [] := by
  constructor
  · rw [List.map_nil, List.filterMap_eq_nil_iff]
    exact fun e he => fileBelow?_of_not_below (h e he)
  · intro e he hb
    rw [h e he] at hb
    cases hb

/-- What is below a directory is below the one around it. -/
theorem isBelow_of_child {place other : List String} {name : String} (hn : Plain name)
    (h : isBelow (place ++ [name]) other = true) : isBelow place other = true := by
  obtain ⟨names, _, _, rfl⟩ := isBelow_iff.mp h
  rw [List.append_assoc]
  have hr : name ≠ root := by
    rintro rfl
    exact hn.noSlash (by decide)
  exact isBelow_append place (List.cons_ne_nil name names)
    (by simp [startsOutside, hn.not_up, hr])

/-- A directory does not lie below one beside it, nor below itself. -/
theorem not_isBelow_sibling (place : List String) (name other : String) :
    isBelow (place ++ [name]) (place ++ [other]) = false := by
  rw [Bool.eq_false_iff]
  intro hb
  obtain ⟨names, hne, _, he⟩ := isBelow_iff.mp hb
  rw [List.append_assoc, List.append_cancel_left_eq] at he
  exact hne (List.cons.inj he).2.symm

/-- Writing files into a directory of their own, which is made for them. -/
theorem holds_directorySteps {s s' : Storage} {purpose out d : String} {place : List String}
    {files : List (String × String)} (ho : s.Opens out place) (hd : Plain d)
    (hk : s.Holds (place ++ [d]) []) (hn : ∀ f ∈ files, Plain f.1)
    (h : (directorySteps purpose (Path.join out d) files).foldlM after s = some s') :
    KeepsDirectories s s' ∧ s'.Holds (place ++ [d]) (latest files) ∧
      (latest files = [] ∨ s'.Opens (Path.join out d) (place ++ [d])) ∧
      ∀ other others, other ≠ d → s.Holds (place ++ [other]) others →
        s'.Holds (place ++ [other]) others := by
  cases files with
  | nil =>
    cases h
    exact ⟨fun _ hp => hp, hk, .inl rfl, fun _ _ _ hh => hh⟩
  | cons f rest =>
    obtain ⟨t, hm, hw⟩ := Option.bind_eq_some_iff.mp h
    obtain ⟨hopen, hmade⟩ := makeDirectories_join ho hd (toOption_eq_some.mp hm)
    -- making the directory puts nothing below it or beside it
    have hkeep : KeepsDirectories s t ∧ ∀ other others, s.Holds (place ++ [other]) others →
        t.Holds (place ++ [other]) others := by
      rcases hmade with rfl | ⟨hnone, rfl⟩
      · exact ⟨fun _ hp => hp, fun _ _ hh => hh⟩
      · exact ⟨keeps_put (by rw [hnone]; nofun) _,
          fun other _ hh => hh.put_of_not_below (not_isBelow_sibling place other d) _⟩
    obtain ⟨hdirs, hholds, hframe⟩ := holds_writes hopen (hkeep.2 d [] hk) hn hw
    refine ⟨fun p hp => hdirs p (hkeep.1 p hp), hholds, .inr (hopen.of_keeps hdirs), ?_⟩
    intro other others hne hh
    refine hframe (place ++ [other]) others (fun name => ?_) (hkeep.2 other others hh)
    rw [List.append_assoc]
    exact not_isBelow_of_ne place hne [name]

/-- What is read back from a directory are the files it holds, in their order. -/
theorem filesUnder_of_holds {s : Storage} {out d : String} {place : List String}
    {files : List (String × String)} (ho : s.Opens out place) (hd : Plain d)
    (hk : s.Holds (place ++ [d]) files)
    (hopen : files = [] ∨ s.Opens (Path.join out d) (place ++ [d])) :
    s.filesUnder (Path.join out d) = files.map fun f => (f.1, f.2.toUTF8) := by
  cases hl : s.locate (Path.join out d) with
  | ok q =>
    obtain rfl := locate_join ho hd hl
    rw [filesUnder_of_locate hl, hk.files]
  | error fault =>
    rcases hopen with rfl | hopen
    · rw [filesUnder, hl]
      rfl
    · rw [hopen.located] at hl
      cases hl

/-- The files under a directory hold some texts, each of them in a file of its own, and nothing
else. -/
def Keeps (s : Storage) (dir : String) (texts : List String) : Prop :=
  ((s.filesUnder dir).map (·.2)).Perm (texts.map String.toUTF8)

end Storage

open Storage

/-- As many files are under a directory as were written, each text in one of its own, exactly if
their names differ. -/
theorem Storage.keeps_iff {s : Storage} {dir : String} {files : List (String × String)}
    (h : s.filesUnder dir = (latest files).map fun f => (f.1, f.2.toUTF8)) :
    (s.filesUnder dir).length = files.length ∧ s.Keeps dir (files.map (·.2)) ↔
      (files.map (·.1)).Nodup := by
  rw [h, List.length_map, length_latest_iff]
  constructor
  · exact And.left
  · intro hnodup
    refine ⟨hnodup, ?_⟩
    rw [Keeps, h, latest_of_nodup hnodup, List.map_map, List.map_map]
    exact (List.reverse_perm files).map _

namespace Client

def wantedSamples (client : Client) (settings : Settings) : List OperationSamples :=
  if settings.generateSamples then client.allSamples.value else []

def wantedTests (client : Client) (settings : Settings) : List Mock.Test :=
  if settings.generateTests then (Mock.tests client Seeded.standard).value else []

theorem value_wanted (condition : Bool) (files : Logged (List (String × String))) :
    (wanted condition files).value = if condition then files.value else [] := by
  cases condition <;> rfl

theorem value_wanted_sampleFiles (client : Client) (settings : Settings) :
    (wanted settings.generateSamples client.sampleFiles).value =
      (client.wantedSamples settings).map fun s => (s.name ++ ".md", s.page) := by
  rw [value_wanted, wantedSamples]
  cases settings.generateSamples <;> rfl

theorem value_wanted_testFiles (client : Client) (settings : Settings) :
    (wanted settings.generateTests client.testFiles).value =
      (client.wantedTests settings).map fun t => (t.name ++ ".json", t.toJson.pretty) := by
  rw [value_wanted, wantedTests]
  cases settings.generateTests <;> rfl

theorem plain_reportFiles (client : Client) : ∀ f ∈ client.reportFiles, Plain f.1 := by
  intro f hf
  rcases List.mem_pair.mp hf with rfl | rfl
  · exact @plain_of_length "resources.json" (by decide) (by decide)
  · exact @plain_of_length "RESOURCES.md" (by decide) (by decide)

/-- The files of samples and of tests lie in directories of their own, the last of each name. -/
theorem filesUnder_artifacts {client : Client} {settings : Settings} {out : String}
    {s t s' : Storage} (made : s.makeDirectories out = .ok t) (vacant : t.IsEmptyDirectory out)
    (done : (client.artifacts settings out).2.foldlM after s = some s')
    {samples tests : List (String × String)}
    (hsamples : (wanted settings.generateSamples client.sampleFiles).value = samples)
    (htests : (wanted settings.generateTests client.testFiles).value = tests)
    (plainSamples : ∀ f ∈ samples, Plain f.1) (plainTests : ∀ f ∈ tests, Plain f.1) :
    s'.filesUnder (Path.join out "samples") =
        (latest samples).map (fun f => (f.1, f.2.toUTF8)) ∧
      s'.filesUnder (Path.join out "mock-tests") =
        (latest tests).map (fun f => (f.1, f.2.toUTF8)) := by
  obtain ⟨place, hopen, hempty⟩ := vacant
  have hs := plain_samples
  have ht := plain_mockTests
  dsimp only [artifacts] at done
  rw [hsamples, htests] at done
  simp only [Logged.steps, foldlM_after_append] at done
  obtain ⟨v₃, ⟨v₂, ⟨v₁, ⟨u₂, ⟨u₁, ⟨u₀, ⟨t₀, hmake, hnotes⟩, hreport⟩, hnotes₁⟩, hsteps⟩, hnotes₂⟩,
    hsteps'⟩, hlast⟩ := done
  obtain rfl : t₀ = t := by
    rw [List.foldlM_cons, after, made] at hmake
    exact (Option.some.inj hmake).symm
  rw [foldlM_after_notes] at hnotes hnotes₁ hnotes₂
  obtain rfl := Option.some.inj hnotes
  obtain rfl := Option.some.inj hnotes₁
  obtain rfl := Option.some.inj hnotes₂
  obtain rfl : v₃ = s' := Option.some.inj hlast
  -- the report lies beside both directories
  obtain ⟨hdirs, _, hframe⟩ := holds_writes hopen (holds_nil hempty)
    client.plain_reportFiles hreport
  have hvacant (d : String) (hd : Plain d) : u₁.Holds (place ++ [d]) [] := by
    refine hframe _ _ (not_isBelow_sibling place d) (holds_nil fun e he => ?_)
    rw [Bool.eq_false_iff]
    intro hb
    have := isBelow_of_child hd hb
    rw [hempty e he] at this
    cases this
  have hopen := hopen.of_keeps hdirs
  obtain ⟨hdirs, hholds, hmade, hframe⟩ :=
    holds_directorySteps hopen hs (hvacant "samples" hs) plainSamples hsteps
  have htests := hframe "mock-tests" [] (by decide) (hvacant "mock-tests" ht)
  have hopen := hopen.of_keeps hdirs
  obtain ⟨hdirs, hholds', hmade', hframe⟩ :=
    holds_directorySteps hopen ht htests plainTests hsteps'
  have hopen := hopen.of_keeps hdirs
  exact ⟨filesUnder_of_holds hopen hs (hframe "samples" _ (by decide) hholds)
      (hmade.imp_right (Opens.of_keeps hdirs)),
    filesUnder_of_holds hopen ht hholds' hmade'⟩

/-- In an empty directory all artifacts are kept exactly if the names of the samples that are wanted
differ, and those of the tests do. -/
theorem artifacts_kept_iff {client : Client} {settings : Settings} {out : String}
    {s t s' : Storage} {notices : List Notice} (made : s.makeDirectories out = .ok t)
    (vacant : t.IsEmptyDirectory out)
    (done : (perform (client.artifacts settings out).2 : StateM Storage _).run s =
      ((notices, .ok ()), s'))
    (plainSamples : ∀ sample ∈ client.wantedSamples settings, '/' ∉ sample.name.toList)
    (plainTests : ∀ test ∈ client.wantedTests settings, '/' ∉ test.name.toList) :
    let samples := Path.join out "samples"
    let tests := Path.join out "mock-tests"
    ((s'.filesUnder samples).length = (client.artifacts settings out).1.samples ∧
      (s'.filesUnder tests).length = (client.artifacts settings out).1.tests ∧
      s'.Keeps samples ((client.wantedSamples settings).map (·.page)) ∧
      s'.Keeps tests ((client.wantedTests settings).map (·.toJson.pretty))) ↔
    ((client.wantedSamples settings).map (·.name)).Nodup ∧
      ((client.wantedTests settings).map (·.name)).Nodup := by
  intro samples tests
  have hsamples := value_wanted_sampleFiles client settings
  have htests := value_wanted_testFiles client settings
  obtain ⟨hs, ht⟩ := filesUnder_artifacts made vacant (foldlM_after_of_perform done) hsamples htests
    (by
      intro f hf
      obtain ⟨sample, hm, rfl⟩ := List.mem_map.mp hf
      exact plain_withEnding (plainSamples sample hm) (by decide) (by decide))
    (by
      intro f hf
      obtain ⟨test, hm, rfl⟩ := List.mem_map.mp hf
      exact plain_withEnding (plainTests test hm) (by decide) (by decide))
  have hs := keeps_iff hs
  have ht := keeps_iff ht
  rw [List.map_map, List.map_map, List.length_map] at hs ht
  have hns := nodup_withEnding ".md" ((client.wantedSamples settings).map (·.name))
  have hnt := nodup_withEnding ".json" ((client.wantedTests settings).map (·.name))
  rw [List.map_map] at hns hnt
  have hcs : (client.artifacts settings out).1.samples =
      (client.wantedSamples settings).length := by
    dsimp only [artifacts]
    rw [hsamples, List.length_map]
  have hct : (client.artifacts settings out).1.tests = (client.wantedTests settings).length := by
    dsimp only [artifacts]
    rw [htests, List.length_map]
  rw [hcs, hct]
  constructor
  · rintro ⟨h₁, h₂, h₃, h₄⟩
    exact ⟨hns.mp (hs.mp ⟨h₁, h₃⟩), hnt.mp (ht.mp ⟨h₂, h₄⟩)⟩
  · rintro ⟨h₁, h₂⟩
    have hs := hs.mpr (hns.mpr h₁)
    have ht := ht.mpr (hnt.mpr h₂)
    exact ⟨hs.1, ht.1, hs.2, ht.2⟩

end Client

namespace Workshop

/-- Operations of two groups whose samples go by one name. -/
def rivals : Service where
  name := "Workshop"
  schemas := []
  groups :=
    [⟨"tool", [{ operation "boxCount" .get "/tool" [] "Number" with
        examples := [("First", ⟨none, [], []⟩)] }]⟩,
      ⟨"toolBox", [{ operation "count" .get "/toolBox" [] "Number" with
        examples := [("Second", ⟨none, [], []⟩)] }]⟩]

def sampling : Settings := { Settings.standard with generateSamples := true }

def vacantOut : Storage := Storage.empty.put ["out"] .directory

theorem makeDirectories_out : Storage.empty.makeDirectories "out" = .ok vacantOut := rfl

theorem isEmptyDirectory_vacantOut : vacantOut.IsEmptyDirectory "out" := by
  refine ⟨["out"], ⟨rfl, rfl⟩, ?_⟩
  intro e he
  rw [List.mem_singleton.mp he]
  rfl

/-- Two samples of one name leave a single file, though each of them was written. -/
theorem rivals_written :
    ∃ notices s', (perform ((rivals.client sampling).value.artifacts sampling "out").2 :
        StateM Storage _).run Storage.empty = ((notices, .ok ()), s') ∧
      (s'.filesUnder (Path.join "out" "samples")).length = 1 := by
  have hdone : ((perform ((rivals.client sampling).value.artifacts sampling "out").2 :
      StateM Storage _).run Storage.empty).1.2.isOk = true := by decide +kernel
  have hfiles : (((perform ((rivals.client sampling).value.artifacts sampling "out").2 :
      StateM Storage _).run Storage.empty).2.filesUnder
        (Path.join "out" "samples")).length = 1 := by decide +kernel
  rcases h : (perform ((rivals.client sampling).value.artifacts sampling "out").2 :
      StateM Storage _).run Storage.empty with ⟨⟨notices, outcome⟩, s'⟩
  rw [h] at hdone hfiles
  cases outcome with
  | error failure => cases hdone
  | ok _ => exact ⟨notices, s', rfl, hfiles⟩

end Workshop

/-- Two samples are counted and written without a failure, and one file is left. -/
theorem rivals_share_file :
    let client := (Workshop.rivals.client Workshop.sampling).value
    ∃ notices s', Storage.empty.makeDirectories "out" = .ok Workshop.vacantOut ∧
      Workshop.vacantOut.IsEmptyDirectory "out" ∧
      (perform (client.artifacts Workshop.sampling "out").2 : StateM Storage _).run Storage.empty =
        ((notices, .ok ()), s') ∧
      (client.artifacts Workshop.sampling "out").1.samples = 2 ∧
      (s'.filesUnder (Path.join "out" "samples")).length = 1 := by
  intro client
  obtain ⟨notices, s', hdone, hfiles⟩ := Workshop.rivals_written
  exact ⟨notices, s', Workshop.makeDirectories_out, Workshop.isEmptyDirectory_vacantOut, hdone,
    by decide +kernel, hfiles⟩

theorem rivals_not_kept :
    let client := (Workshop.rivals.client Workshop.sampling).value
    let samples := Path.join "out" "samples"
    let tests := Path.join "out" "mock-tests"
    let summary := (client.artifacts Workshop.sampling "out").1
    ∃ notices s', (perform (client.artifacts Workshop.sampling "out").2 : StateM Storage _).run
        Storage.empty = ((notices, .ok ()), s') ∧
      ¬ ((s'.filesUnder samples).length = summary.samples ∧
        (s'.filesUnder tests).length = summary.tests ∧
        s'.Keeps samples ((client.wantedSamples Workshop.sampling).map (·.page)) ∧
        s'.Keeps tests ((client.wantedTests Workshop.sampling).map (·.toJson.pretty))) := by
  intro client samples tests summary
  obtain ⟨notices, s', hdone, _⟩ := Workshop.rivals_written
  refine ⟨notices, s', hdone, fun hkept => ?_⟩
  have hnames := (client.artifacts_kept_iff Workshop.makeDirectories_out
    Workshop.isEmptyDirectory_vacantOut hdone (by decide +kernel) (fun _ h => nomatch h)).mp hkept
  exact absurd hnames.1 (by decide +kernel)

end Lifecycle
