import Lifecycle.Proofs.Capitals
import Lifecycle.Proofs.MethodsByName
import Lifecycle.Proofs.SampleBook
import Lifecycle.Proofs.TestAccount

/-!
# Symbols in the names of artifacts

Samples and tests are named for a group and a method, both in PascalCase. That drops a few symbols
and keeps the others where they are: no character has a symbol among its capitals, but for the
symbol itself.
-/
namespace Lifecycle

open Text

namespace Text

/-- The ASCII characters before the capital letters, null apart. -/
def IsSymbol (c : Char) : Prop := 0 < c.toNat ∧ c.toNat < 65

instance (c : Char) : Decidable (IsSymbol c) := inferInstanceAs (Decidable (_ ∧ _))

theorem not_isSymbol_ofNat {n : Nat} (h : 65 ≤ n) : ¬ IsSymbol (Char.ofNat n) := by
  by_cases hv : n.isValidChar
  · rw [Char.ofNat, dif_pos hv]
    exact fun hs => absurd hs.2 (Nat.not_lt_of_le h)
  · rw [Char.ofNat, dif_neg hv]
    decide

theorem letters_longUpper : ∀ e ∈ longUpper, ∀ n ∈ e.2, 65 ≤ n := by decide +kernel

theorem toUpper_ofNat_of_lt :
    ∀ n < 128, (Char.ofNat n).toUpper = Char.ofNat n ∨
      ¬ IsSymbol (Char.ofNat n) ∧ ¬ IsSymbol (Char.ofNat n).toUpper := by decide +kernel

variable {x c : Char}

theorem not_isSymbol_target {r : CaseRun} (hr : r ∈ upperRuns) {n : Nat}
    (hc : r.covers n = true) : ¬ IsSymbol (r.target n) := by
  have hfirst : r.first ≤ n := by
    simp only [CaseRun.covers, Bool.and_eq_true, decide_eq_true_eq] at hc
    exact hc.1.1
  have hletter := letters_upperRuns r hr
  exact not_isSymbol_ofNat (by omega)

/-- A symbol is a capital of itself alone. -/
theorem mem_upper_iff (hx : IsSymbol x) : x ∈ upper c ↔ x = c := by
  rcases upper_cases c with ⟨hascii, hc⟩ | ⟨hbeyond, hcases⟩
  · rw [hc, List.mem_singleton]
    have h := toUpper_ofNat_of_lt c.toNat hascii
    rw [Char.ofNat_toNat] at h
    rcases h with h | ⟨hc, hu⟩
    · rw [h]
    · exact ⟨fun e => absurd (e ▸ hx) hu, fun e => absurd (e ▸ hx) hc⟩
  · have hne : x ≠ c := by
      rintro rfl
      exact absurd (hx.2.trans_le' hbeyond) (by decide)
    refine iff_of_false (fun h => ?_) hne
    rcases hcases with ⟨r, hr, hcovers, hc⟩ | ⟨e, he, hc⟩ | hc
    · rw [hc, List.mem_singleton] at h
      exact not_isSymbol_target hr hcovers (h ▸ hx)
    · rw [hc] at h
      obtain ⟨n, hn, rfl⟩ := List.mem_map.mp h
      exact not_isSymbol_ofNat (letters_longUpper e he n hn) hx
    · rw [hc, List.mem_singleton] at h
      exact hne h

end Text

variable {x : Char}

theorem mem_pascalWords_iff (hx : IsSymbol x) (raise : Bool) (cs : List Char) :
    x ∈ pascalWords raise cs ↔ x ∈ cs ∧ isWordSeparator x = false := by
  induction cs generalizing raise with
  | nil => simp [pascalWords]
  | cons c rest ih =>
    unfold pascalWords
    rw [List.mem_cons]
    split
    · rename_i hc
      rw [ih]
      constructor
      · exact fun h => ⟨.inr h.1, h.2⟩
      · rintro ⟨rfl | h, hs⟩
        · rw [hs] at hc
          cases hc
        · exact ⟨h, hs⟩
    · rename_i hc
      have hkept : x = c ∨ x ∈ pascalWords false rest ↔
          (x = c ∨ x ∈ rest) ∧ isWordSeparator x = false := by
        rw [ih]
        constructor
        · rintro (rfl | h)
          · exact ⟨.inl rfl, Bool.eq_false_of_not_eq_true hc⟩
          · exact ⟨.inr h.1, h.2⟩
        · exact fun h => h.1.imp_right fun hr => ⟨hr, h.2⟩
      split
      · rw [List.mem_append, mem_upper_iff hx, hkept]
      · rw [List.mem_cons, hkept]

/-- A symbol is in the name exactly if it was, unless it parts words; capitals never make one. -/
theorem mem_pascalCase_iff (hx : IsSymbol x) (s : String) :
    x ∈ (pascalCase s).toList ↔ x ∈ s.toList ∧ isWordSeparator x = false := by
  rw [pascalCase, String.toList_ofList, mem_pascalWords_iff hx]

theorem slash_mem_pascalCase (s : String) : '/' ∈ (pascalCase s).toList ↔ '/' ∈ s.toList := by
  rw [mem_pascalCase_iff (by decide)]
  exact and_iff_left (by decide)

theorem not_dot_mem_pascalCase (s : String) : '.' ∉ (pascalCase s).toList := by
  rw [mem_pascalCase_iff (by decide)]
  exact fun h => absurd h.2 (by decide)

theorem slash_mem_entryName (group operation : String) :
    '/' ∈ (entryName group operation).toList ↔ '/' ∈ group.toList ∨ '/' ∈ operation.toList := by
  rw [entryName, String.toList_append, List.mem_append, slash_mem_pascalCase, slash_mem_pascalCase]

theorem not_dot_mem_entryName (group operation : String) :
    '.' ∉ (entryName group operation).toList := by
  rw [entryName, String.toList_append, List.mem_append, not_or]
  exact ⟨not_dot_mem_pascalCase group, not_dot_mem_pascalCase operation⟩

/-- The name of a test is that of an entry of samples with an ending. -/
theorem mem_testName_iff (hx : x ∉ "MockTests".toList) (collection method : String) :
    x ∈ (Mock.testName collection method).toList ↔ x ∈ (entryName collection method).toList := by
  rw [Mock.testName, String.toList_append, List.mem_append]
  exact or_iff_left hx

/-! ### What artifacts are named for -/

theorem SampleBook.name_of_mem_enterAll {group : String} {items : List (String × Sample)}
    {book : SampleBook} {s : OperationSamples} (h : s ∈ enterAll group items book) :
    (∃ item ∈ items, s.name = entryName group item.1) ∨ s ∈ book := by
  induction items generalizing book with
  | nil => exact .inr h
  | cons item rest ih =>
    rw [enterAll_cons] at h
    rcases ih h with ⟨other, ho, hs⟩ | h
    · exact .inl ⟨other, List.mem_cons_of_mem item ho, hs⟩
    · exact (name_of_mem_enter (Sample.name_add · item.2) h).imp_left
        fun hs => ⟨item, List.mem_cons_self, hs⟩

namespace Client

variable {client : Client} {c : Collection}

/-- The methods of all collections. -/
def allMethods (client : Client) : List Method := client.collections.flatMap (·.methods)

theorem mem_allMethods_of_mem_references {m : Method} {b : Binding}
    (h : m ∈ client.references b) : m ∈ client.allMethods := by
  obtain ⟨q, _, hq⟩ := List.mem_filterMap.mp h
  have hm := List.mem_of_getElem? hq
  unfold methods at hm
  split at hm
  · rename_i c hc
    exact List.mem_flatMap.mpr ⟨c, List.mem_of_getElem? hc, hm⟩
  · cases hm

theorem mem_methods_of_mem_plainMethods {m : Method} (h : m ∈ client.plainMethods c) :
    m ∈ c.methods := by
  obtain ⟨⟨m, q⟩, hq, rfl⟩ := List.mem_map.mp h
  exact List.fst_mem_of_mem_zipIdx (List.mem_of_mem_filter hq)

/-- Samples of what is bound go under the operation of a method, or under none. -/
theorem operationName_cases (client : Client) (b : Binding) :
    client.operationName b = "" ∨
      ∃ m ∈ client.allMethods, client.operationName b = m.operation.name := by
  unfold operationName
  cases h : client.references b with
  | nil => exact .inl rfl
  | cons m rest =>
    exact .inr ⟨m, mem_allMethods_of_mem_references (h ▸ List.mem_cons_self), rfl⟩

/-- Samples are entered under operations of the client, or under no name at all. -/
theorem operation_of_mem_sampleItems (hc : c ∈ client.collections) {item : String × Sample}
    (h : item ∈ client.sampleItems c) :
    item.1 = "" ∨ ∃ m ∈ client.allMethods, item.1 = m.operation.name := by
  rw [sampleItems, List.mem_append, List.mem_append] at h
  rcases h with (h | h) | h
  · obtain ⟨call, hcall, rfl⟩ := List.mem_map.mp h
    obtain ⟨⟨m, name, e⟩, he, rfl⟩ := List.mem_map.mp hcall
    obtain ⟨m', hm, he⟩ := List.mem_flatMap.mp he
    obtain ⟨_, _, he⟩ := List.mem_map.mp he
    obtain rfl : m' = m := congrArg Prod.fst he
    exact .inr ⟨m', List.mem_flatMap.mpr
      ⟨c, hc, mem_methods_of_mem_plainMethods (List.mem_of_mem_filter hm)⟩, rfl⟩
  · obtain ⟨create, hcreate, rfl⟩ := List.mem_map.mp h
    obtain ⟨⟨r, b⟩, _, hb⟩ := List.mem_flatMap.mp hcreate
    obtain ⟨sample, _, rfl⟩ := List.mem_map.mp hb
    exact client.operationName_cases b
  · obtain ⟨update, hupdate, rfl⟩ := List.mem_map.mp h
    obtain ⟨⟨r, b⟩, _, hb⟩ := List.mem_flatMap.mp hupdate
    obtain ⟨sample, _, rfl⟩ := List.mem_map.mp hb
    exact client.operationName_cases b

theorem name_of_mem_allSamples {s : OperationSamples} (h : s ∈ client.allSamples.value) :
    ∃ c ∈ client.collections, ∃ item ∈ client.sampleItems c, s.name = entryName c.name item.1 := by
  have hv : client.allSamples.value =
      (client.collections.map fun c => (client.samples c).value).flatten := by
    rw [allSamples, Logged.value_bind, Logged.value_mapM, Logged.value_pure]
  rw [hv, ← List.flatMap_def] at h
  obtain ⟨c, hc, hs⟩ := List.mem_flatMap.mp h
  rw [value_samples] at hs
  rcases SampleBook.name_of_mem_enterAll hs with ⟨item, hi, hn⟩ | hs
  · exact ⟨c, hc, item, hi, hn⟩
  · cases hs

end Client

namespace Mock

variable {γ : Type} [Generator γ] {client : Client} {c : Collection}

theorem tested_mem_allMethods (hc : c ∈ client.collections) {subject : Subject}
    (h : subject ∈ subjects client c) : subject.tested ∈ client.allMethods := by
  rcases List.mem_append.mp h with h | h
  · obtain ⟨m, hm, rfl⟩ := List.mem_map.mp h
    exact List.mem_flatMap.mpr
      ⟨c, hc, Client.mem_methods_of_mem_plainMethods (List.mem_of_mem_filter hm)⟩
  · obtain ⟨⟨r, b⟩, _, hs⟩ := List.mem_filterMap.mp h
    obtain ⟨m, hm, rfl⟩ := Option.map_eq_some_iff.mp hs
    exact Client.mem_allMethods_of_mem_references (List.mem_of_find?_eq_some hm)

theorem Decides.describes {subject : Subject} {g g' : γ} {t : Test}
    (hd : Decides client c subject g (.tested t) g') : t.Describes c subject := by
  cases hd with
  | tested _ _ _ describes => exact describes

theorem name_of_mem_testsOfAll {collections : List Collection} {g : γ} {t : Test}
    (ht : t ∈ (testsOfAll client g collections).value.1) :
    ∃ c ∈ collections, ∃ subject ∈ subjects client c,
      t.name = testName c.name subject.tested.name := by
  obtain ⟨c, hc, subject, hs, _, _, hd⟩ := exists_decides_of_mem_testsOfAll ht
  exact ⟨c, hc, subject, hs, hd.describes.name⟩

end Mock

namespace Client

/-- No collection and no method has a slash in its name, nor has an operation. -/
structure Slashless (client : Client) : Prop where
  collections : ∀ c ∈ client.collections, '/' ∉ c.name.toList
  methods : ∀ m ∈ client.allMethods, '/' ∉ m.name.toList ∧ '/' ∉ m.operation.name.toList

variable {client : Client}

theorem not_dot_mem_name_of_sample {s : OperationSamples} (h : s ∈ client.allSamples.value) :
    '.' ∉ s.name.toList := by
  obtain ⟨c, _, item, _, hn⟩ := name_of_mem_allSamples h
  rw [hn]
  exact not_dot_mem_entryName c.name item.1

theorem Slashless.sample (hc : client.Slashless) {s : OperationSamples}
    (h : s ∈ client.allSamples.value) : '/' ∉ s.name.toList := by
  obtain ⟨c, hmem, item, hi, hn⟩ := name_of_mem_allSamples h
  rw [hn, slash_mem_entryName, not_or]
  refine ⟨hc.collections c hmem, ?_⟩
  rcases operation_of_mem_sampleItems hmem hi with he | ⟨m, hm, he⟩
  · rw [he]
    decide
  · rw [he]
    exact (hc.methods m hm).2

variable {γ : Type} [Generator γ] {g : γ}

theorem not_dot_mem_name_of_test {t : Mock.Test} (h : t ∈ (Mock.tests client g).value) :
    '.' ∉ t.name.toList := by
  obtain ⟨c, _, subject, _, hn⟩ := Mock.name_of_mem_testsOfAll h
  rw [hn, mem_testName_iff (by decide)]
  exact not_dot_mem_entryName c.name subject.tested.name

theorem Slashless.test (hc : client.Slashless) {t : Mock.Test}
    (h : t ∈ (Mock.tests client g).value) : '/' ∉ t.name.toList := by
  obtain ⟨c, hmem, subject, hs, hn⟩ := Mock.name_of_mem_testsOfAll h
  rw [hn, mem_testName_iff (by decide), slash_mem_entryName, not_or]
  exact ⟨hc.collections c hmem, (hc.methods _ (Mock.tested_mem_allMethods hmem hs)).1⟩

end Client

/-- No group and no operation has a slash in its name. -/
def Service.Slashless (service : Service) : Prop :=
  ∀ group ∈ service.groups, '/' ∉ group.name.toList ∧
    ∀ op ∈ group.operations, '/' ∉ op.name.toList

instance (service : Service) : Decidable service.Slashless :=
  inferInstanceAs (Decidable (∀ group ∈ service.groups, _ ∧ _))

theorem Operation.slash_not_mem_name {op : Operation} (h : '/' ∉ op.name.toList) {m : Method}
    (hm : m ∈ op.collectionMethods) : '/' ∉ m.name.toList := by
  have hn : m.name = op.name ∨ m.name = op.name ++ responseEnding := by
    rcases op.mem_collectionMethods.mp hm with rfl | rfl
    · grind [shortMethod]
    · grind [fullMethod]
  rcases hn with hn | hn
  · rwa [hn]
  · rw [hn, String.toList_append, List.mem_append, not_or]
    exact ⟨h, by decide⟩

/-- Without slashes in the names of a service, there are none in those of its client. -/
theorem Assembly.slashless_client (a : Assembly) {service : Service} (h : service.Slashless) :
    (a.client service).value.Slashless := by
  constructor
  · intro c hc
    obtain ⟨j, hj⟩ := List.getElem?_of_mem hc
    obtain ⟨group, hg, hn, _⟩ := a.group_of_collection service hj
    rw [hn]
    exact (h group (List.mem_of_getElem? hg)).1
  · intro m hm
    obtain ⟨c, hc, hm⟩ := List.mem_flatMap.mp hm
    obtain ⟨j, hj⟩ := List.getElem?_of_mem hc
    obtain ⟨group, hg, _, hmethods⟩ := a.group_of_collection service hj
    rw [hmethods] at hm
    obtain ⟨op, hop, hm⟩ := List.mem_flatMap.mp hm
    have hname := (h group (List.mem_of_getElem? hg)).2 op hop
    refine ⟨op.slash_not_mem_name hname hm, ?_⟩
    rw [Operation.operation_of_mem hm]
    exact hname

end Lifecycle
