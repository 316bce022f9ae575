import Mathlib.Data.List.Induction
import Lifecycle.Proofs.DefinitionChain

/-!
# Parameters that give way

The stage of a parameter is called by the name of the parameter, or, if a stage in front is called
so, by that name with a word added. The longer name is not looked up again. For parameters of
distinct names it can be told without the stages in between which of them give way, and whether the
stages come out apart: each parameter that gives way must find its longer name free.
-/
namespace Lifecycle

/-! ### Entries of a list and those before them -/

/-- A condition on each entry of a list and the entries before it. -/
def Throughout {α : Type} (P : List α → α → Prop) (entries : List α) : Prop :=
  ∀ front x back, entries = front ++ x :: back → P front x

theorem throughout_nil {α : Type} (P : List α → α → Prop) : Throughout P [] := by
  intro front x back h
  cases front <;> cases h

/-- For inductions from the end, where the last entry sees all the others. -/
theorem throughout_concat {α : Type} {P : List α → α → Prop} {entries : List α} {last : α} :
    Throughout P (entries ++ [last]) ↔ Throughout P entries ∧ P entries last := by
  constructor
  · intro h
    refine ⟨?_, h entries last [] rfl⟩
    intro front x back he
    exact h front x (back ++ [last]) (by rw [he, List.append_assoc, List.cons_append])
  · rintro ⟨h, hlast⟩ front x back he
    rcases List.eq_nil_or_concat back with rfl | ⟨back, y, rfl⟩
    · obtain ⟨rfl, hx⟩ := List.append_inj' he rfl
      obtain rfl := List.singleton_inj.mp hx
      exact hlast
    · rw [List.concat_eq_append, ← List.cons_append, ← List.append_assoc] at he
      exact h front x back (List.append_inj' he rfl).1

theorem throughout_congr {α : Type} {P Q : List α → α → Prop} {entries : List α}
    (h : ∀ front x back, entries = front ++ x :: back → (P front x ↔ Q front x)) :
    Throughout P entries ↔ Throughout Q entries :=
  forall_congr' fun front => forall_congr' fun x => forall_congr' fun back =>
    forall_congr' fun he => h front x back he

/-! ### Longer names -/

/-- The name of the stage of a parameter whose own name is taken. -/
def longerName (p : Parameter) : String :=
  stageName (p.name ++ "Parameter")

/-- The ending is a word of its own already, so it joins without change. -/
theorem pascalWords_append_parameter (raise : Bool) (cs : List Char) :
    pascalWords raise (cs ++ "Parameter".toList) = pascalWords raise cs ++ "Parameter".toList := by
  induction cs generalizing raise with
  | nil => cases raise <;> decide
  | cons c rest ih =>
    rw [List.cons_append, pascalWords, pascalWords]
    split
    · exact ih true
    · split
      · rw [ih, List.append_assoc]
      · rw [ih, List.cons_append]

theorem longerName_eq (p : Parameter) : longerName p = stageName p.name ++ "Parameter" := by
  unfold longerName stageName pascalCase
  rw [String.toList_append, pascalWords_append_parameter, String.ofList_append,
    String.ofList_toList, String.append_assoc]

/-- Whether a name can be that of a parameter that gave way. -/
def endsInParameter (name : String) : Bool :=
  "Parameter".toList.isSuffixOf name.toList

theorem endsInParameter_longerName (p : Parameter) : endsInParameter (longerName p) = true := by
  rw [endsInParameter, longerName_eq, String.toList_append, List.isSuffixOf_iff_suffix]
  exact List.suffix_append _ _

theorem stageName_inj {a b : String} : stageName a = stageName b ↔ pascalCase a = pascalCase b :=
  String.append_right_inj "With"

theorem longerName_inj {p q : Parameter} :
    longerName p = longerName q ↔ pascalCase p.name = pascalCase q.name := by
  rw [longerName_eq, longerName_eq, String.append_left_inj, stageName_inj]

namespace Stage

/-- The longer name is taken on a clash and is not looked up again. -/
theorem name_ofParameter (others : List Stage) (p : Parameter) :
    (ofParameter others p).name =
      if stageName p.name ∈ others.map (·.name) then longerName p else stageName p.name := by
  have hany : (others.any (·.name == stageName p.name)) = true ↔
      stageName p.name ∈ others.map (·.name) := by
    simp only [List.any_eq_true, beq_iff_eq, List.mem_map]
  unfold ofParameter
  dsimp only
  by_cases h : stageName p.name ∈ others.map (·.name)
  · rw [if_pos h, if_pos (hany.mpr h)]
    rfl
  · rw [if_neg h, if_neg fun ht => h (hany.mp ht)]

/-- A stage of a parameter is apart from those in front unless it gives way in vain. -/
theorem name_ofParameter_not_mem_iff {others : List Stage} {p : Parameter} :
    (ofParameter others p).name ∉ others.map (·.name) ↔
      (stageName p.name ∈ others.map (·.name) → longerName p ∉ others.map (·.name)) := by
  rw [name_ofParameter]
  by_cases h : stageName p.name ∈ others.map (·.name)
  · rw [if_pos h]
    exact ⟨fun hn _ => hn, fun hn => hn h⟩
  · rw [if_neg h]
    exact ⟨fun _ ht => absurd ht h, fun _ => h⟩

/-! ### The stages of parameters one after the other -/

theorem parameterStages_concat (others : List Stage) (front : List Parameter) (p : Parameter) :
    parameterStages others (front ++ [p]) = parameterStages others front ++
      [ofParameter (others ++ parameterStages others front) p] := by
  induction front generalizing others with
  | nil =>
    rw [List.nil_append, parameterStages, parameterStages, parameterStages, List.append_nil]
    rfl
  | cons q rest ih =>
    rw [List.cons_append, parameterStages, parameterStages, ih, List.append_assoc]
    rfl

variable {others : List Stage} {side : List Parameter}

/-- A name stays free exactly if no parameter takes it after those before it. -/
theorem not_mem_names_parameterStages_iff {name : String} :
    name ∉ (parameterStages others side).map (·.name) ↔
      Throughout (fun front p =>
        (ofParameter (others ++ parameterStages others front) p).name ≠ name) side := by
  induction side using List.reverseRecOn with
  | nil => exact iff_of_true List.not_mem_nil (throughout_nil _)
  | append_singleton front p ih =>
    rw [throughout_concat, ← ih, parameterStages_concat, List.map_append, List.mem_append, not_or,
      List.map_singleton, List.mem_singleton, ne_comm]

theorem mem_names_parameterStages_iff {name : String} :
    name ∈ (parameterStages others side).map (·.name) ↔
      ∃ front p back, side = front ++ p :: back ∧
        (ofParameter (others ++ parameterStages others front) p).name = name := by
  rw [← not_iff_not, not_mem_names_parameterStages_iff]
  simp only [Throughout, not_exists, not_and, ne_eq]

theorem names_subset_append (others : List Stage) (front back : List Parameter) :
    (parameterStages others front).map (·.name) ⊆
      (parameterStages others (front ++ back)).map (·.name) := by
  intro name h
  obtain ⟨before, p, between, rfl, hname⟩ := mem_names_parameterStages_iff.mp h
  refine mem_names_parameterStages_iff.mpr ⟨before, p, between ++ back, ?_, hname⟩
  rw [List.append_assoc, List.cons_append]

/-- The stages of parameters are apart, also from those in front, if each comes in apart. -/
theorem apart_iff_throughout :
    ((parameterStages others side).map (·.name)).Nodup ∧
        (others.map (·.name)).Disjoint ((parameterStages others side).map (·.name)) ↔
      Throughout (fun front p => (ofParameter (others ++ parameterStages others front) p).name ∉
        (others ++ parameterStages others front).map (·.name)) side := by
  induction side using List.reverseRecOn with
  | nil => simp [parameterStages, throughout_nil]
  | append_singleton front p ih =>
    rw [throughout_concat, ← ih, parameterStages_concat, List.map_append, List.nodup_append',
      List.disjoint_append_right, List.map_append, List.mem_append]
    simp only [List.map_cons, List.map_nil, List.nodup_singleton, List.disjoint_singleton]
    tauto

/-- A name that no parameter can give way to, and that is taken in front, is not met again. -/
theorem not_mem_names_parameterStages {name : String} (hn : name ∈ others.map (·.name))
    (he : endsInParameter name = false) : name ∉ (parameterStages others side).map (·.name) := by
  rw [not_mem_names_parameterStages_iff]
  rintro front p _ _ rfl
  have hmem : (ofParameter (others ++ parameterStages others front) p).name ∈
      (others ++ parameterStages others front).map (·.name) := by
    rw [List.map_append]
    exact List.mem_append_left _ hn
  rw [name_ofParameter] at hmem he
  split at hmem
  · rw [if_pos ‹_›, endsInParameter_longerName] at he
    cases he
  · exact absurd hmem ‹_›

end Stage

/-! ### Who gives way -/

/-- A parameter gives way, after some others, to a name that is taken from the start, or to the
longer name of a parameter that gave way itself. -/
inductive GivesWay (taken : List String) : List Parameter → Parameter → Prop
  | own {front : List Parameter} {p : Parameter} (h : stageName p.name ∈ taken) :
    GivesWay taken front p
  | pushed {front : List Parameter} {q : Parameter} {between : List Parameter} {p : Parameter}
    (gives : GivesWay taken front q) (h : longerName q = stageName p.name) :
    GivesWay taken (front ++ q :: between) p

/-- Each parameter that gives way finds its longer name free: no stage had it from the start, and no
parameter before it is called so. -/
def LongerNamesFree (taken : List String) (side : List Parameter) : Prop :=
  Throughout (fun front p => GivesWay taken front p →
    longerName p ∉ taken ∧ ∀ q ∈ front, stageName q.name ≠ longerName p) side

namespace Stage

variable {others : List Stage} {front : List Parameter} {p : Parameter}

theorem pascalCase_ne_of_nodup (hn : ((front ++ [p]).map (pascalCase ·.name)).Nodup)
    {q : Parameter} (hq : q ∈ front) : pascalCase q.name ≠ pascalCase p.name := by
  rw [List.map_append, List.nodup_append'] at hn
  intro he
  exact hn.2.2 (List.mem_map_of_mem hq) (he ▸ List.mem_cons_self)

theorem nodup_of_split {side back : List Parameter} (he : side = front ++ p :: back)
    (hn : (side.map (pascalCase ·.name)).Nodup) :
    ((front ++ [p]).map (pascalCase ·.name)).Nodup := by
  have hstart : (front ++ [p]) <+: side := ⟨back, by rw [he, List.append_assoc]; rfl⟩
  exact hn.sublist (hstart.sublist.map _)

/-- Among parameters of distinct names it is told from the start who gives way. -/
theorem stageName_mem_iff_givesWay (hn : ((front ++ [p]).map (pascalCase ·.name)).Nodup) :
    stageName p.name ∈ (others ++ parameterStages others front).map (·.name) ↔
      GivesWay (others.map (·.name)) front p := by
  induction hl : front.length using Nat.strong_induction_on generalizing front p with
  | h n ih =>
    subst hl
    have hfront := hn.sublist ((List.sublist_append_left front [p]).map _)
    -- whoever came before gives way or not by the same rule
    have hbefore {before between : List Parameter} {q : Parameter}
        (he : front = before ++ q :: between) :
        stageName q.name ∈ (others ++ parameterStages others before).map (·.name) ↔
          GivesWay (others.map (·.name)) before q := by
      refine ih before.length ?_ (nodup_of_split he hfront) rfl
      rw [he, List.length_append, List.length_cons]
      omega
    rw [List.map_append, List.mem_append, mem_names_parameterStages_iff]
    constructor
    · rintro (h | ⟨before, q, between, he, hname⟩)
      · exact .own h
      · rw [name_ofParameter] at hname
        split at hname
        · subst he
          exact .pushed ((hbefore rfl).mp ‹_›) hname
        · have hq : q ∈ front := he ▸ List.mem_append_right _ List.mem_cons_self
          exact absurd (stageName_inj.mp hname) (pascalCase_ne_of_nodup hn hq)
    · intro h
      cases h with
      | own h => exact .inl h
      | @pushed before q between _ gives h =>
        refine .inr ⟨before, q, between, rfl, ?_⟩
        rw [name_ofParameter, if_pos ((hbefore rfl).mpr gives), h]

/-- The longer name of a parameter is only taken from the start or by a parameter called so. -/
theorem longerName_mem_iff (hn : ((front ++ [p]).map (pascalCase ·.name)).Nodup) :
    longerName p ∈ (others ++ parameterStages others front).map (·.name) ↔
      longerName p ∈ others.map (·.name) ∨ ∃ q ∈ front, stageName q.name = longerName p := by
  rw [List.map_append, List.mem_append]
  constructor
  · rintro (h | h)
    · exact .inl h
    · obtain ⟨before, q, between, he, hname⟩ := mem_names_parameterStages_iff.mp h
      have hq : q ∈ front := he ▸ List.mem_append_right _ List.mem_cons_self
      rw [name_ofParameter] at hname
      split at hname
      · exact absurd (longerName_inj.mp hname) (pascalCase_ne_of_nodup hn hq)
      · exact .inr ⟨q, hq, hname⟩
  · rintro (h | ⟨q, hq, hname⟩)
    · exact .inl h
    · rw [← hname]
      obtain ⟨before, between, rfl⟩ := List.append_of_mem hq
      -- either the stage of the other parameter is called so, or it gave way to one that is
      by_cases h : stageName q.name ∈ (others ++ parameterStages others before).map (·.name)
      · rw [List.map_append, List.mem_append] at h
        exact h.imp_right fun h => names_subset_append others before _ h
      · refine .inr (mem_names_parameterStages_iff.mpr ⟨before, q, between, rfl, ?_⟩)
        rw [name_ofParameter, if_neg h]

/-- The stages of parameters of distinct names come out apart exactly if all longer names that are
needed are free. -/
theorem apart_iff_longerNamesFree {side : List Parameter}
    (hn : (side.map (pascalCase ·.name)).Nodup) :
    ((parameterStages others side).map (·.name)).Nodup ∧
        (others.map (·.name)).Disjoint ((parameterStages others side).map (·.name)) ↔
      LongerNamesFree (others.map (·.name)) side := by
  rw [apart_iff_throughout]
  apply throughout_congr
  rintro front p back rfl
  have hfront := nodup_of_split rfl hn
  rw [name_ofParameter_not_mem_iff, stageName_mem_iff_givesWay hfront, longerName_mem_iff hfront]
  simp only [not_or, not_exists, not_and, ne_eq]

end Stage

end Lifecycle
