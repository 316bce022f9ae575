import Lifecycle.Proofs.Capitals
import Lifecycle.Proofs.SampleBook
import Lifecycle.Sample.Page

/-!
# PascalCase

PascalCase raises the first character of each word of a name and runs the words together. The words
of two names with a separator between them are those of the one and those of the other, so the name
is put together from what the parts give. What comes out has no separators, and its first character
is not raised any further: the names of this kind are those that PascalCase leaves as they are.
Pages of samples put the name of a group in PascalCase a second time, which changes nothing.
-/
namespace Lifecycle

open Text

variable {c d : Char} {cs : List Char}

/-- A word with its first character raised. -/
def capitalized : List Char → List Char
  | [] => []
  | c :: rest => upper c ++ rest

/-- A name of one word at most, whose first character is not raised any further. -/
structure IsPascal (cs : List Char) : Prop where
  unbroken : ∀ c ∈ cs, isWordSeparator c = false
  raised : ∀ c ∈ cs.head?, upper c = [c]

/-! ### Words -/

/-- The first word is raised on demand, all others are. -/
theorem pascalWords_eq_words (raise : Bool) {word : List Char} {words : List (List Char)}
    (h : cs.splitOnP isWordSeparator = word :: words) :
    pascalWords raise cs =
      (if raise then capitalized word else word) ++ words.flatMap capitalized := by
  induction cs generalizing raise word words with
  | nil =>
    rw [List.splitOnP_nil, List.cons.injEq] at h
    obtain ⟨rfl, rfl⟩ := h
    cases raise <;> rfl
  | cons c rest ih =>
    obtain ⟨next, others, hrest⟩ := List.exists_cons_of_ne_nil
      (List.splitOnP_ne_nil isWordSeparator rest)
    rw [List.splitOnP_cons_eq_if_modifyHead, hrest] at h
    rw [pascalWords]
    cases hc : isWordSeparator c with
    | true =>
      rw [hc, if_pos rfl, List.cons.injEq] at h
      obtain ⟨rfl, rfl⟩ := h
      rw [if_pos rfl, ih true hrest]
      cases raise <;> rfl
    | false =>
      rw [hc, if_neg Bool.false_ne_true, List.modifyHead_cons, List.cons.injEq] at h
      obtain ⟨rfl, rfl⟩ := h
      rw [if_neg Bool.false_ne_true, ih false hrest]
      cases raise <;> simp [capitalized]

theorem pascalWords_true (cs : List Char) :
    pascalWords true cs = (cs.splitOnP isWordSeparator).flatMap capitalized := by
  obtain ⟨word, words, h⟩ := List.exists_cons_of_ne_nil
    (List.splitOnP_ne_nil isWordSeparator cs)
  rw [pascalWords_eq_words true h, h, List.flatMap_cons, if_pos rfl]

theorem toList_pascalCase (s : String) :
    (pascalCase s).toList = (s.toList.splitOnP isWordSeparator).flatMap capitalized := by
  rw [pascalCase, String.toList_ofList, pascalWords_true]

/-- Words are put together one by one, so any separator splits the name. -/
theorem pascalCase_append_separator (s t : String) (hc : isWordSeparator c = true) :
    pascalCase (s ++ String.singleton c ++ t) = pascalCase s ++ pascalCase t := by
  have hsplit : (s ++ String.singleton c ++ t).toList = s.toList ++ c :: t.toList := by simp
  rw [← String.toList_inj, String.toList_append, toList_pascalCase, toList_pascalCase,
    toList_pascalCase, hsplit, List.splitOnP_append_cons _ _ hc, List.flatMap_append]

/-! ### Names that stay as they are -/

/-- No separator is left, with or without a capital pending. -/
theorem not_isWordSeparator_of_mem (raise : Bool) (h : d ∈ pascalWords raise cs) :
    isWordSeparator d = false := by
  induction cs generalizing raise with
  | nil => cases h
  | cons c rest ih =>
    rw [pascalWords] at h
    cases hc : isWordSeparator c with
    | true =>
      rw [hc, if_pos rfl] at h
      exact ih true h
    | false =>
      rw [hc, if_neg Bool.false_ne_true] at h
      cases raise with
      | true =>
        rcases List.mem_append.mp h with h | h
        · exact not_isWordSeparator_of_mem_upper hc h
        · exact ih false h
      | false =>
        rcases List.mem_cons.mp h with rfl | h
        · exact hc
        · exact ih false h

theorem upper_head_pascalWords (h : d ∈ (pascalWords true cs).head?) : upper d = [d] := by
  induction cs with
  | nil => cases h
  | cons c rest ih =>
    rw [pascalWords] at h
    cases hc : isWordSeparator c with
    | true =>
      rw [hc, if_pos rfl] at h
      exact ih h
    | false =>
      rw [hc, if_neg Bool.false_ne_true, if_pos rfl] at h
      -- the first character comes from the raised one, which gives at least one
      rw [List.head?_append_of_ne_nil _ (upper_ne_nil c)] at h
      exact upper_of_mem_upper (List.mem_of_mem_head? h)

theorem isPascal_pascalWords (cs : List Char) : IsPascal (pascalWords true cs) :=
  ⟨fun _ h => not_isWordSeparator_of_mem true h, fun _ h => upper_head_pascalWords h⟩

theorem pascalWords_of_isPascal (h : IsPascal cs) : pascalWords true cs = cs := by
  rw [pascalWords_true, List.splitOnP_eq_singleton h.unbroken, List.flatMap_singleton]
  cases cs with
  | nil => rfl
  | cons c rest =>
    have hc : upper c = [c] := h.raised c rfl
    rw [capitalized, hc, List.singleton_append]

/-- PascalCase leaves exactly the names in PascalCase as they are. -/
theorem pascalCase_eq_self_iff {s : String} : pascalCase s = s ↔ IsPascal s.toList := by
  constructor
  · intro h
    have hpascal := isPascal_pascalWords s.toList
    rwa [← String.toList_ofList (l := pascalWords true s.toList), ← pascalCase, h] at hpascal
  · intro h
    rw [pascalCase, pascalWords_of_isPascal h, String.ofList_toList]

theorem isPascal_pascalCase (s : String) : IsPascal (pascalCase s).toList := by
  rw [pascalCase, String.toList_ofList]
  exact isPascal_pascalWords s.toList

/-- A second pass changes nothing, nothing is left that separates words, and a separator is where a
name can be taken apart. -/
theorem pascalCase_laws :
    (∀ s : String,
      (pascalCase s).toList = (s.toList.splitOnP isWordSeparator).flatMap capitalized) ∧
    (∀ s : String, pascalCase (pascalCase s) = pascalCase s) ∧
    (∀ s : String, ∀ c ∈ (pascalCase s).toList,
      c ≠ '_' ∧ c ≠ '-' ∧ c ≠ '.' ∧ isBlank c = false) ∧
    ∀ (s t : String) (c : Char), c = '_' ∨ c = '-' ∨ c = '.' ∨ isBlank c = true →
      pascalCase (s ++ String.singleton c ++ t) = pascalCase s ++ pascalCase t := by
  refine ⟨toList_pascalCase, ?_, ?_, ?_⟩
  · intro s
    exact pascalCase_eq_self_iff.mpr (isPascal_pascalCase s)
  · intro s c hc
    have hkept := (isPascal_pascalCase s).unbroken c hc
    rw [Bool.eq_false_iff, ne_eq, isWordSeparator_iff] at hkept
    simpa only [not_or, Bool.not_eq_true] using hkept
  · intro s t c hc
    exact pascalCase_append_separator s t (isWordSeparator_iff.mpr hc)

/-- The second word starts with a letter that is raised to two. -/
theorem dotted_name_in_parts :
    (('.' = '_' ∨ '.' = '-' ∨ '.' = '.' ∨ isBlank '.' = true) ∧
      pascalCase ("tool" ++ String.singleton '.' ++ "ßet") = "ToolSSet") ∧
    'S' ∈ (pascalCase "tool.ßet").toList ∧
      'S' ≠ '_' ∧ 'S' ≠ '-' ∧ 'S' ≠ '.' ∧ isBlank 'S' = false := by
  obtain ⟨_, _, hkept, happend⟩ := pascalCase_laws
  have hmem : 'S' ∈ (pascalCase "tool.ßet").toList := by decide +kernel
  refine ⟨⟨by decide, ?_⟩, hmem, hkept "tool.ßet" 'S' hmem⟩
  rw [happend "tool" "ßet" '.' (by decide)]
  decide +kernel

/-! ### Headings of sample pages -/

namespace SampleBook

variable {group operation : String}

theorem group_of_mem_enter {change : OperationSamples → OperationSamples}
    (hg : ∀ s, (change s).group = s.group) {book : SampleBook}
    (hb : ∀ s ∈ book, s.group = pascalCase group) {s : OperationSamples}
    (h : s ∈ book.enter group operation change) : s.group = pascalCase group := by
  have hnew : (change (.none group operation)).group = pascalCase group := hg _
  induction book with
  | nil =>
    obtain rfl := List.mem_singleton.mp h
    exact hnew
  | cons t rest ih =>
    obtain ⟨hfirst, hrest⟩ := List.forall_mem_cons.mp hb
    rw [enter] at h
    split at h
    · rcases List.mem_cons.mp h with rfl | h
      · exact (hg t).trans hfirst
      · exact hrest s h
    · split at h
      · rcases List.mem_cons.mp h with rfl | h
        · exact hnew
        · exact hb s h
      · rcases List.mem_cons.mp h with rfl | h
        · exact hfirst
        · exact ih hrest h

theorem group_of_mem_enterAll {items : List (String × Sample)} {book : SampleBook}
    (hb : ∀ s ∈ book, s.group = pascalCase group) {s : OperationSamples}
    (h : s ∈ enterAll group items book) : s.group = pascalCase group := by
  induction items generalizing book with
  | nil => exact hb s h
  | cons item rest ih =>
    refine ih (fun t ht => group_of_mem_enter ?_ hb ht) h
    intro t
    cases item.2 <;> rfl

end SampleBook

/-- The page of an entry is headed by the two names that its file is called by. -/
theorem Client.heading_of_mem_samples {client : Client} {c : Collection} {s : OperationSamples}
    (h : s ∈ (client.samples c).value) :
    ∃ rest, s.page = "# " ++ s.group ++ " " ++ s.method ++ " samples\n" ++ rest := by
  rw [value_samples] at h
  have hgroup : pascalCase s.group = s.group := by
    rw [SampleBook.group_of_mem_enterAll (fun _ ht => absurd ht List.not_mem_nil) h]
    exact pascalCase_eq_self_iff.mpr (isPascal_pascalCase c.name)
  refine ⟨String.join (s.calls.map CallSample.page) ++ (String.join (s.creates.map
    CreateSample.page) ++ String.join (s.updates.map UpdateSample.page) ++ "\n"), ?_⟩
  rw [OperationSamples.page, hgroup]
  simp only [String.append_assoc]

end Lifecycle
