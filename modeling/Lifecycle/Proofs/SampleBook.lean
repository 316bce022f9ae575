import Mathlib.Data.String.Basic
import Lifecycle.Sample

/-!
# Books of samples

A book keeps one entry for each name, in the order of the names. Entering a sample adds it at the
end of the entry of its operation and leaves all other entries alone, so what an entry holds in the
end is what was entered under its name, in the order in which it came. Names of operations may run
together; then their samples share an entry.
-/
namespace Lifecycle

/-- The name of the entry of an operation of a group. -/
def entryName (group operation : String) : String :=
  pascalCase group ++ pascalCase operation

theorem OperationSamples.name_none (group operation : String) :
    (OperationSamples.none group operation).name = entryName group operation := rfl

namespace SampleBook

/-- The entries are in the order of their names, with one entry for each name. -/
def Sorted (book : SampleBook) : Prop :=
  book.Pairwise (·.name < ·.name)

def entryNamed? (book : SampleBook) (name : String) : Option OperationSamples :=
  book.find? (·.name == name)

/-- The samples of one kind that are kept under a name. -/
def under {α : Type} (book : SampleBook) (kind : OperationSamples → List α) (name : String) :
    List α :=
  ((book.entryNamed? name).map kind).getD []

theorem entryNamed?_cons_self {s : OperationSamples} {name : String} (h : s.name = name)
    (rest : SampleBook) : entryNamed? (s :: rest) name = some s := by
  rw [entryNamed?, List.find?_cons, beq_iff_eq.mpr h]

theorem entryNamed?_cons_of_ne {s : OperationSamples} {name : String} (h : s.name ≠ name)
    (rest : SampleBook) : entryNamed? (s :: rest) name = entryNamed? rest name := by
  rw [entryNamed?, List.find?_cons, beq_eq_false_iff_ne.mpr h]
  rfl

/-- Names below the first one have no entry. -/
theorem entryNamed?_eq_none {s : OperationSamples} {rest : SampleBook} (hb : Sorted (s :: rest))
    {name : String} (h : name < s.name) : entryNamed? (s :: rest) name = none := by
  rw [Sorted, List.pairwise_cons] at hb
  rw [entryNamed?, List.find?_eq_none]
  intro t ht
  have hlt : name < t.name := by
    rcases List.mem_cons.mp ht with rfl | hr
    · exact h
    · exact h.trans (hb.1 t hr)
  simpa using hlt.ne'

/-! ### One sample -/

variable {group operation : String} {change : OperationSamples → OperationSamples}

theorem enter_cons_of_eq {s : OperationSamples} (h : s.name = entryName group operation)
    (rest : SampleBook) : enter group operation change (s :: rest) = change s :: rest := by
  rw [enter]
  exact if_pos (beq_iff_eq.mpr h)

theorem enter_cons_of_lt {s : OperationSamples} (h : entryName group operation < s.name)
    (rest : SampleBook) :
    enter group operation change (s :: rest) =
      change (.none group operation) :: s :: rest := by
  rw [enter, OperationSamples.name_none, if_neg (by simpa using h.ne'), if_pos h]

theorem enter_cons_of_gt {s : OperationSamples} (h : s.name < entryName group operation)
    (rest : SampleBook) :
    enter group operation change (s :: rest) = s :: enter group operation change rest := by
  rw [enter, OperationSamples.name_none, if_neg (by simpa using h.ne), if_neg (not_lt.mpr h.le)]

/-- The entry of the operation is changed, or is made by the change. -/
theorem entryNamed?_enter_self (hn : ∀ s, (change s).name = s.name) {book : SampleBook}
    (hb : book.Sorted) :
    (book.enter group operation change).entryNamed? (entryName group operation) =
      some (change
        ((book.entryNamed? (entryName group operation)).getD (.none group operation))) := by
  -- a step stops at the first name that is not below, behind which the name cannot come
  induction book with
  | nil => exact entryNamed?_cons_self (hn _) []
  | cons s rest ih =>
    rcases lt_trichotomy s.name (entryName group operation) with h | h | h
    · rw [enter_cons_of_gt h, entryNamed?_cons_of_ne h.ne, entryNamed?_cons_of_ne h.ne,
        ih (List.Pairwise.of_cons hb)]
    · rw [enter_cons_of_eq h, entryNamed?_cons_self h, entryNamed?_cons_self ((hn s).trans h),
        Option.getD_some]
    · have hnew : (change (.none group operation)).name = entryName group operation := hn _
      rw [enter_cons_of_lt h, entryNamed?_cons_self hnew, entryNamed?_eq_none hb h,
        Option.getD_none]

theorem entryNamed?_enter_of_ne (hn : ∀ s, (change s).name = s.name) {name : String}
    (hne : entryName group operation ≠ name) (book : SampleBook) :
    (book.enter group operation change).entryNamed? name = book.entryNamed? name := by
  have hnew : (change (.none group operation)).name ≠ name := by rwa [hn]
  induction book with
  | nil => exact entryNamed?_cons_of_ne hnew []
  | cons s rest ih =>
    rcases lt_trichotomy s.name (entryName group operation) with h | h | h
    · rw [enter_cons_of_gt h]
      by_cases hs : s.name = name
      · rw [entryNamed?_cons_self hs, entryNamed?_cons_self hs]
      · rw [entryNamed?_cons_of_ne hs, entryNamed?_cons_of_ne hs, ih]
    · have hs : s.name ≠ name := by rwa [h]
      rw [enter_cons_of_eq h, entryNamed?_cons_of_ne hs, entryNamed?_cons_of_ne (by rwa [hn])]
    · rw [enter_cons_of_lt h, entryNamed?_cons_of_ne hnew]

theorem name_of_mem_enter (hn : ∀ s, (change s).name = s.name) {book : SampleBook}
    {t : OperationSamples} (ht : t ∈ book.enter group operation change) :
    t.name = entryName group operation ∨ t ∈ book := by
  induction book with
  | nil =>
    obtain rfl := List.mem_singleton.mp ht
    exact .inl (hn _)
  | cons s rest ih =>
    rcases lt_trichotomy s.name (entryName group operation) with h | h | h
    · rw [enter_cons_of_gt h] at ht
      rcases List.mem_cons.mp ht with rfl | hr
      · exact .inr List.mem_cons_self
      · exact (ih hr).imp_right (List.mem_cons_of_mem s)
    · rw [enter_cons_of_eq h] at ht
      rcases List.mem_cons.mp ht with rfl | hr
      · exact .inl ((hn s).trans h)
      · exact .inr (List.mem_cons_of_mem s hr)
    · rw [enter_cons_of_lt h] at ht
      rcases List.mem_cons.mp ht with rfl | hr
      · exact .inl (hn _)
      · exact .inr hr

theorem sorted_enter (hn : ∀ s, (change s).name = s.name) {book : SampleBook} (hb : book.Sorted) :
    (book.enter group operation change).Sorted := by
  induction book with
  | nil => exact List.pairwise_singleton _ _
  | cons s rest ih =>
    have hr : Sorted rest := List.Pairwise.of_cons hb
    have hs : ∀ t ∈ rest, s.name < t.name := fun t ht => List.rel_of_pairwise_cons hb ht
    rcases lt_trichotomy s.name (entryName group operation) with h | h | h
    · rw [enter_cons_of_gt h, Sorted, List.pairwise_cons]
      refine ⟨?_, ih hr⟩
      intro t ht
      rcases name_of_mem_enter hn ht with he | ht
      · rwa [he]
      · exact hs t ht
    · rw [enter_cons_of_eq h, Sorted, List.pairwise_cons]
      refine ⟨?_, hr⟩
      intro t ht
      rw [hn]
      exact hs t ht
    · rw [enter_cons_of_lt h, Sorted, List.pairwise_cons]
      refine ⟨?_, hb⟩
      intro t ht
      have hnew : (change (.none group operation)).name < s.name := by rwa [hn]
      rcases List.mem_cons.mp ht with rfl | ht
      · exact hnew
      · exact hnew.trans (hs t ht)

end SampleBook

/-! ### Many samples -/

/-- A sample of any kind. -/
inductive Sample
  | call (sample : CallSample)
  | create (sample : CreateSample)
  | update (sample : UpdateSample)

namespace Sample

/-- The samples of an operation with one more at the end of those of its kind. -/
def add (s : OperationSamples) : Sample → OperationSamples
  | .call sample => { s with calls := s.calls ++ [sample] }
  | .create sample => { s with creates := s.creates ++ [sample] }
  | .update sample => { s with updates := s.updates ++ [sample] }

theorem name_add (s : OperationSamples) (x : Sample) : (add s x).name = s.name := by
  cases x <;> rfl

def call? : Sample → Option CallSample
  | .call sample => some sample
  | _ => none

def create? : Sample → Option CreateSample
  | .create sample => some sample
  | _ => none

def update? : Sample → Option UpdateSample
  | .update sample => some sample
  | _ => none

/-- One kind of samples: where it is kept, and which samples are of it. -/
structure IsKind {α : Type} (kept : OperationSamples → List α) (pick : Sample → Option α) :
    Prop where
  none : ∀ group operation, kept (.none group operation) = []
  add : ∀ s x, kept (add s x) = kept s ++ (pick x).toList

theorem isKind_calls : IsKind (·.calls) call? := by
  refine ⟨fun _ _ => rfl, ?_⟩
  rintro s (_ | _ | _)
  · rfl
  · exact (List.append_nil _).symm
  · exact (List.append_nil _).symm

theorem isKind_creates : IsKind (·.creates) create? := by
  refine ⟨fun _ _ => rfl, ?_⟩
  rintro s (_ | _ | _)
  · exact (List.append_nil _).symm
  · rfl
  · exact (List.append_nil _).symm

theorem isKind_updates : IsKind (·.updates) update? := by
  refine ⟨fun _ _ => rfl, ?_⟩
  rintro s (_ | _ | _)
  · exact (List.append_nil _).symm
  · exact (List.append_nil _).symm
  · rfl

end Sample

namespace SampleBook

def enterAll (group : String) (items : List (String × Sample)) (book : SampleBook) : SampleBook :=
  items.foldl (fun book item => book.enter group item.1 (Sample.add · item.2)) book

theorem enterAll_cons (group : String) (item : String × Sample) (rest : List (String × Sample))
    (book : SampleBook) :
    enterAll group (item :: rest) book =
      enterAll group rest (book.enter group item.1 (Sample.add · item.2)) := rfl

theorem sorted_enterAll (group : String) (items : List (String × Sample)) {book : SampleBook}
    (hb : book.Sorted) : (enterAll group items book).Sorted := by
  induction items generalizing book with
  | nil => exact hb
  | cons item rest ih => exact ih (sorted_enter (Sample.name_add · item.2) hb)

variable {α : Type} {kept : OperationSamples → List α} {pick : Sample → Option α}

/-- A sample is appended under its own name and kind, and nowhere else. -/
theorem under_enter (h : Sample.IsKind kept pick) (group operation : String) (x : Sample)
    {book : SampleBook} (hb : book.Sorted) (name : String) :
    (book.enter group operation (Sample.add · x)).under kept name =
      book.under kept name ++
        if entryName group operation = name then (pick x).toList else [] := by
  unfold under
  by_cases he : entryName group operation = name
  · subst he
    rw [entryNamed?_enter_self (Sample.name_add · x) hb, if_pos rfl, Option.map_some,
      Option.getD_some, h.add]
    cases book.entryNamed? (entryName group operation) with
    | none => rw [Option.getD_none, Option.map_none, Option.getD_none, h.none]
    | some s => rw [Option.getD_some, Option.map_some, Option.getD_some]
  · rw [entryNamed?_enter_of_ne (Sample.name_add · x) he, if_neg he, List.append_nil]

/-- An entry gains what is entered under its name, kind by kind and in order. -/
theorem under_enterAll (h : Sample.IsKind kept pick) (group : String)
    (items : List (String × Sample)) {book : SampleBook} (hb : book.Sorted) (name : String) :
    (enterAll group items book).under kept name =
      book.under kept name ++
        (items.filter fun item => entryName group item.1 = name).filterMap (pick ·.2) := by
  induction items generalizing book with
  | nil => exact (List.append_nil _).symm
  | cons item rest ih =>
    rw [enterAll_cons, ih (sorted_enter (Sample.name_add · item.2) hb),
      under_enter h group item.1 item.2 hb, List.filter_cons, List.append_assoc]
    congr 1
    by_cases he : entryName group item.1 = name
    · rw [if_pos he, if_pos (decide_eq_true he), List.filterMap_cons]
      cases pick item.2 <;> rfl
    · rw [if_neg he, if_neg (by simpa using he), List.nil_append]

end SampleBook

/-! ### The book of a collection -/

namespace Client

/-- The samples of calls in a collection, each with its operation. -/
def callItems (client : Client) (c : Collection) : List (String × CallSample) :=
  (examplesOf (client.plainMethods c)).map fun (m, name, e) =>
    (m.operation.name, (e.call c.name m name).value)

def createItems (client : Client) (c : Collection) : List (String × CreateSample) :=
  (client.boundResources c .create).flatMap fun (r, b) =>
    (client.createSamples r).value.map (client.operationName b, ·)

def updateItems (client : Client) (c : Collection) : List (String × UpdateSample) :=
  (client.boundResources c .update).flatMap fun (r, b) =>
    (client.updateSamples r).value.map (client.operationName b, ·)

/-- All samples of a collection, each with its operation. -/
def sampleItems (client : Client) (c : Collection) : List (String × Sample) :=
  (client.callItems c).map (Prod.map id .call) ++ (client.createItems c).map (Prod.map id .create)
    ++ (client.updateItems c).map (Prod.map id .update)

/-- The book of a collection is its items entered one by one. -/
theorem value_samples (client : Client) (c : Collection) :
    (client.samples c).value = SampleBook.enterAll c.name (client.sampleItems c) [] := by
  unfold samples SampleBook.enterAll sampleItems callItems createItems updateItems
  simp only [Logged.value_bind, Logged.value_pure, Logged.value_foldlM, List.foldl_append,
    List.foldl_map, List.foldl_flatMap]
  rfl

theorem sorted_samples (client : Client) (c : Collection) : (client.samples c).value.Sorted := by
  rw [value_samples]
  exact SampleBook.sorted_enterAll _ _ List.Pairwise.nil

/-- What goes into the entry of a name in the book of a collection, of some samples with their
operations. -/
def itemsUnder {α : Type} (c : Collection) (name : String) (items : List (String × α)) : List α :=
  (items.filter fun item => entryName c.name item.1 = name).map (·.2)

/-- Samples that come in groups, each group with its operation. -/
theorem itemsUnder_flatMap {α ι : Type} (c : Collection) (name : String) (groups : List ι)
    (operation : ι → String) (samples : ι → List α) :
    itemsUnder c name (groups.flatMap fun x => (samples x).map (operation x, ·)) =
      (groups.filter fun x => entryName c.name (operation x) = name).flatMap samples := by
  induction groups with
  | nil => rfl
  | cons x rest ih =>
    unfold itemsUnder at ih ⊢
    rw [List.flatMap_cons, List.filter_append, List.map_append, ih, List.filter_cons,
      List.filter_map, List.map_map]
    by_cases he : entryName c.name (operation x) = name
    · rw [if_pos (decide_eq_true he), List.flatMap_cons]
      congr 1
      have hall : (samples x).filter ((fun item : String × α =>
          decide (entryName c.name item.1 = name)) ∘ (operation x, ·)) = samples x :=
        List.filter_eq_self.mpr fun _ _ => decide_eq_true he
      rw [hall]
      exact List.map_id _
    · have hnone : (samples x).filter ((fun item : String × α =>
          decide (entryName c.name item.1 = name)) ∘ (operation x, ·)) = [] :=
        List.filter_eq_nil_iff.mpr fun _ _ => by simpa using he
      rw [hnone, if_neg (by simpa using he)]
      rfl

/-- What goes into the entry of a name, of the samples of one kind among some of all kinds. -/
def pickUnder {α : Type} (pick : Sample → Option α) (c : Collection) (name : String)
    (items : List (String × Sample)) : List α :=
  (items.filter fun item => entryName c.name item.1 = name).filterMap (pick ·.2)

section

variable {α β : Type} (make : β → Sample) (c : Collection) (name : String)

theorem pickUnder_append (pick : Sample → Option α) (front back : List (String × Sample)) :
    pickUnder pick c name (front ++ back) =
      pickUnder pick c name front ++ pickUnder pick c name back := by
  rw [pickUnder, List.filter_append, List.filterMap_append]
  rfl

theorem pickUnder_of_none {pick : Sample → Option α} (h : ∀ x, pick (make x) = none)
    (items : List (String × β)) :
    pickUnder pick c name (items.map (Prod.map id make)) = [] := by
  rw [pickUnder, List.filterMap_eq_nil_iff]
  intro item hi
  obtain ⟨_, _, rfl⟩ := List.mem_map.mp (List.mem_filter.mp hi).1
  exact h _

theorem pickUnder_of_some {pick : Sample → Option β} (h : ∀ x, pick (make x) = some x)
    (items : List (String × β)) :
    pickUnder pick c name (items.map (Prod.map id make)) = itemsUnder c name items := by
  rw [pickUnder, List.filter_map, List.filterMap_map, itemsUnder, ← List.filterMap_eq_map]
  congr 1
  funext item
  exact h item.2

end

/-- A kind of samples under a name comes from the three rounds in which samples are entered. -/
theorem under_samples {α : Type} {kept : OperationSamples → List α} {pick : Sample → Option α}
    (h : Sample.IsKind kept pick) (client : Client) (c : Collection) (name : String) :
    (client.samples c).value.under kept name =
      pickUnder pick c name ((client.callItems c).map (Prod.map id .call)) ++
        pickUnder pick c name ((client.createItems c).map (Prod.map id .create)) ++
          pickUnder pick c name ((client.updateItems c).map (Prod.map id .update)) := by
  rw [value_samples, SampleBook.under_enterAll h _ _ List.Pairwise.nil, ← pickUnder_append,
    ← pickUnder_append]
  rfl

/-- Under a name stand the calls for it, in the order they were entered. -/
theorem calls_samples (client : Client) (c : Collection) (name : String) :
    (client.samples c).value.under (·.calls) name = itemsUnder c name (client.callItems c) := by
  rw [under_samples Sample.isKind_calls, pickUnder_of_some .call c name fun _ => rfl,
    pickUnder_of_none .create c name fun _ => rfl, pickUnder_of_none .update c name fun _ => rfl,
    List.append_nil, List.append_nil]

theorem creates_samples (client : Client) (c : Collection) (name : String) :
    (client.samples c).value.under (·.creates) name =
      itemsUnder c name (client.createItems c) := by
  rw [under_samples Sample.isKind_creates, pickUnder_of_none .call c name fun _ => rfl,
    pickUnder_of_some .create c name fun _ => rfl, pickUnder_of_none .update c name fun _ => rfl,
    List.append_nil, List.nil_append]

theorem updates_samples (client : Client) (c : Collection) (name : String) :
    (client.samples c).value.under (·.updates) name =
      itemsUnder c name (client.updateItems c) := by
  rw [under_samples Sample.isKind_updates, pickUnder_of_none .call c name fun _ => rfl,
    pickUnder_of_none .create c name fun _ => rfl, pickUnder_of_some .update c name fun _ => rfl,
    List.append_nil, List.nil_append]

end Client

end Lifecycle
