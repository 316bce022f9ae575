import Lifecycle.Proofs.ParameterNames

/-!
# Which stages are kept apart

The stages of a definition have names and setters, and so have those of an update. Where properties
have distinct names, and parameters too, three rules keep all apart in most cases: the stage of the
parent and those of parameters give way to a name that is taken, and a location is set as a region
unless there is a property for that. What each rule leaves open is told here. The longer name of a
stage may be taken as well, and setters are never compared: another stage may be set as the region,
and another as the existing parent.
-/
namespace Lifecycle

/-! ### Tails -/

namespace Stage

/-- The setter of a stage goes by the name of the stage. -/
def Plain (s : Stage) : Prop :=
  ∃ tail, s.name = "With" ++ tail ∧ s.setter = some ("with" ++ tail)

/-- Names and setters of plain stages differ in their beginnings only. -/
theorem exists_tails {stages : List Stage} (h : ∀ s ∈ stages, s.Plain) :
    ∃ tails : List String, stages.map (·.name) = tails.map ("With" ++ ·) ∧
      stages.filterMap (·.setter) = tails.map ("with" ++ ·) := by
  induction stages with
  | nil => exact ⟨[], rfl, rfl⟩
  | cons s rest ih =>
    obtain ⟨tail, hname, hsetter⟩ := h s List.mem_cons_self
    obtain ⟨tails, hnames, hsetters⟩ := ih fun s hs => h s (List.mem_cons_of_mem _ hs)
    refine ⟨tail :: tails, ?_, ?_⟩
    · rw [List.map_cons, List.map_cons, hname, hnames]
    · rw [List.filterMap_cons_some hsetter, List.map_cons, hsetters]

theorem plain_ofParameter (others : List Stage) (p : Parameter) : (ofParameter others p).Plain :=
  ⟨_, rfl, rfl⟩

theorem plain_of_mem_parameterStages {others : List Stage} {side : List Parameter} {s : Stage}
    (h : s ∈ parameterStages others side) : s.Plain := by
  induction side generalizing others with
  | nil => cases h
  | cons p rest ih =>
    rcases List.mem_cons.mp h with rfl | h
    · exact plain_ofParameter others p
    · exact ih h

end Stage

theorem nodup_map_append_iff {start : String} {tails : List String} :
    (tails.map (start ++ ·)).Nodup ↔ tails.Nodup :=
  List.nodup_map_iff fun _ _ => (String.append_right_inj start).mp

theorem mem_map_append_iff {start tail : String} {tails : List String} :
    start ++ tail ∈ tails.map (start ++ ·) ↔ tail ∈ tails :=
  List.mem_map_of_injective fun _ _ => (String.append_right_inj start).mp

theorem append_ne {start tail name : String} (h : ¬ start.toList <+: name.toList) :
    start ++ tail ≠ name := by
  rintro rfl
  exact h (String.toList_append ▸ List.prefix_append _ _)

theorem not_mem_map_append {start name : String} {tails : List String}
    (h : ¬ start.toList <+: name.toList) : name ∉ tails.map (start ++ ·) := by
  intro hmem
  obtain ⟨tail, _, he⟩ := List.mem_map.mp hmem
  exact append_ne h he

/-- One entry of a list put in place of another. -/
theorem nodup_replace_iff {α : Type} [DecidableEq α] {entries rest : List α} {x y : α}
    (hn : entries.Nodup) (hx : x ∈ entries) (hr : x ∉ rest) (hne : y ≠ x) :
    ((entries.map fun z => if z = x then y else z) ++ rest).Nodup ↔
      (entries ++ rest).Nodup ∧ y ∉ entries ++ rest := by
  obtain ⟨front, back, rfl⟩ := List.append_of_mem hx
  have hsplit := List.nodup_middle.mp hn
  obtain ⟨hout, hrest⟩ := List.nodup_cons.mp hsplit
  have hkeep {part : List α} (h : x ∉ part) :
      (part.map fun z => if z = x then y else z) = part := by
    refine (List.map_congr_left ?_).trans (List.map_id part)
    intro z hz
    exact if_neg fun he : z = x => h (he ▸ hz)
  rw [List.mem_append, not_or] at hout
  rw [List.map_append, List.map_cons, hkeep hout.1, hkeep hout.2, if_pos rfl, List.append_assoc,
    List.append_assoc, List.cons_append, List.cons_append, List.nodup_middle, List.nodup_middle,
    List.nodup_cons, List.nodup_cons]
  simp only [List.mem_append, List.mem_cons, not_or]
  tauto

/-! ### Properties and the parent -/

/-- Whether a location is set as a region. -/
def setsRegion (properties : List Property) : Bool :=
  hasLocation properties && !properties.any (·.name == "region")

/-- What a setter for a property goes by. -/
def setterTail (properties : List Property) (p : Property) : String :=
  if setsRegion properties && p.name == "location" then "Region" else pascalCase p.name

/-- Only a location is set by another name than its own. -/
theorem mem_setterTails_iff {properties all : List Property} {tail : String} (hr : tail ≠ "Region")
    (hl : tail ≠ "Location") :
    tail ∈ properties.map (setterTail all) ↔ tail ∈ properties.map (pascalCase ·.name) := by
  have hsame (p : Property) : setterTail all p = tail ↔ pascalCase p.name = tail := by
    unfold setterTail
    split
    · rename_i h
      have hname : pascalCase p.name = "Location" := by
        rw [eq_of_beq (Bool.and_eq_true_iff.mp h).2]
        decide
      rw [hname]
      exact iff_of_false hr.symm hl.symm
    · exact Iff.rfl
  simp only [List.mem_map, hsame]

theorem map_setterTail_of_not_setsRegion {properties : List Property}
    (hr : setsRegion properties = false) :
    properties.map (setterTail properties) = properties.map (pascalCase ·.name) := by
  apply List.map_congr_left
  intro p _
  rw [setterTail, hr]
  rfl

/-- Among distinct names the location is told by the name of its stage. -/
theorem map_setterTail_of_setsRegion {properties : List Property}
    (hn : (properties.map (pascalCase ·.name)).Nodup) (hr : setsRegion properties = true) :
    "Location" ∈ properties.map (pascalCase ·.name) ∧
      properties.map (setterTail properties) =
        (properties.map (pascalCase ·.name)).map
          fun tail => if tail = "Location" then "Region" else tail := by
  obtain ⟨location, hl, hname, _⟩ := hasLocation_iff.mp (Bool.and_eq_true_iff.mp hr).1
  have hcase : pascalCase location.name = "Location" := by
    rw [hname]
    decide
  refine ⟨hcase ▸ List.mem_map_of_mem hl, ?_⟩
  rw [List.map_map]
  apply List.map_congr_left
  intro p hp
  rw [Function.comp_apply, setterTail, hr, Bool.true_and]
  by_cases he : p.name = "location"
  · rw [he, if_pos (beq_self_eq_true _), if_pos (by decide)]
  · have hne : pascalCase p.name ≠ "Location" := by
      intro h
      have hsame := List.inj_on_of_nodup_map hn hp hl (h.trans hcase.symm)
      exact he (hsame ▸ hname)
    rw [if_neg hne, if_neg (by simpa using he)]

theorem propertySetter_eq (properties : List Property) (p : Property) :
    propertySetter properties p = "with" ++ setterTail properties p := by
  unfold propertySetter setterTail setsRegion
  by_cases hn : p.name = "location"
  · rw [hn]
    cases hasLocation properties <;> cases properties.any (·.name == "region") <;> decide
  · simp [hn, setterName]

/-- The names that the stage of a parent may have. -/
def parentStageNames : List String :=
  ["WithResourceGroup", "WithParentResource", "WithScope", "WithResourceGroupStage",
    "WithParentResourceStage", "WithScopeStage"]

namespace Client

variable {client : Client} {r : Resource} {create : Binding}

theorem name_mem_of_parentStage {properties : List Property} {side : List Parameter} {s : Stage}
    (h : s ∈ client.parentStage r create properties side) : s.name ∈ parentStageNames := by
  obtain ⟨base, hbase, rfl⟩ := Option.map_eq_some_iff.mp h
  have hbases : base = "WithResourceGroup" ∨ base = "WithParentResource" ∨ base = "WithScope" := by
    cases hcategory : r.category <;> simp [hcategory, Category.parentStage?] at hbase <;>
      simp [← hbase]
  dsimp only
  split
  · rcases hbases with rfl | rfl | rfl <;> decide
  · rcases hbases with rfl | rfl | rfl <;> decide

theorem setter_of_parentStage {properties : List Property} {side : List Parameter} {s : Stage}
    (h : s ∈ client.parentStage r create properties side) :
    s.setter = some ("with" ++ ("Existing" ++ client.parentName r create)) := by
  obtain ⟨base, _, rfl⟩ := Option.map_eq_some_iff.mp h
  rw [← String.append_assoc]
  rfl

/-- The stage of the parent in a definition. -/
def definedParent? (client : Client) (r : Resource) (create : Binding) : Option Stage :=
  client.parentStage r create (client.settableProperties r create) (client.sideParameters create)

/-- The stages before those of parameters are a blank stage, the create, the parent and one for each
property. -/
theorem perm_map_stagesBeforeSide (client : Client) (r : Resource) (create : Binding) {β : Type}
    [DecidableEq β] (view : Stage → β) {ofProperty : Property → β}
    (h : ∀ mandatory p,
      view (.ofProperty (client.settableProperties r create) mandatory p) = ofProperty p) :
    ((client.stagesBeforeSide r create).map view).Perm
      (view .blank :: view .create ::
        ((client.definedParent? r create).toList.map view ++
          (client.settableProperties r create).map ofProperty)) := by
  unfold stagesBeforeSide definedParent?
  dsimp only
  generalize client.settableProperties r create = properties at h
  have hview (mandatory : Bool) (part : List Property) :
      (part.map (.ofProperty properties mandatory)).map view = part.map ofProperty := by
    rw [List.map_map]
    exact List.map_congr_left fun p _ => h mandatory p
  have hperm := (List.filter_append_perm (·.required) properties).map ofProperty
  rw [← splitLocation_append r (properties.filter (·.required)), List.map_append,
    List.map_append] at hperm
  rw [List.perm_iff_count]
  intro x
  have hcount := hperm.count_eq x
  simp only [List.map_append, List.map_cons, List.map_nil, List.count_append, List.count_cons,
    List.count_nil, hview] at hcount ⊢
  omega

theorem stageNames_eq (properties : List Property) :
    properties.map (stageName ·.name) =
      (properties.map (pascalCase ·.name)).map ("With" ++ ·) := by
  rw [List.map_map]
  rfl

/-- The names before those of parameters, regardless of order. -/
theorem perm_names_stagesBeforeSide (client : Client) (r : Resource) (create : Binding) :
    ((client.stagesBeforeSide r create).map (·.name)).Perm
      ("Blank" :: "Create" :: ((client.definedParent? r create).toList.map (·.name) ++
        (client.settableProperties r create).map (stageName ·.name))) :=
  client.perm_map_stagesBeforeSide r create (·.name) fun _ _ => rfl

theorem mem_names_of_property {tail : String}
    (h : tail ∈ (client.settableProperties r create).map (pascalCase ·.name)) :
    "With" ++ tail ∈ (client.stagesBeforeSide r create).map (·.name) := by
  rw [(client.perm_names_stagesBeforeSide r create).mem_iff, stageNames_eq]
  exact List.mem_cons_of_mem _ (List.mem_cons_of_mem _
    (List.mem_append_right _ (mem_map_append_iff.mpr h)))

/-- Names and setters of a definition, in parts. -/
theorem exists_parts_of_names (hc : r.create = some create) :
    ∃ tails : List String,
      (Stage.parameterStages (client.stagesBeforeSide r create)
        (client.sideParameters create)).map (·.name) = tails.map ("With" ++ ·) ∧
      ((client.definitionStages r).value.map (·.name)).Perm
        ("Blank" :: "Create" :: ((client.definedParent? r create).toList.map (·.name) ++
          ((client.settableProperties r create).map (pascalCase ·.name) ++ tails).map
            ("With" ++ ·))) ∧
      ((client.definitionStages r).value.filterMap (·.setter)).Perm
        ("create" :: ((client.definedParent? r create).toList.map
            (fun _ => "Existing" ++ client.parentName r create) ++
          ((client.settableProperties r create).map
            (setterTail (client.settableProperties r create)) ++ tails)).map ("with" ++ ·)) := by
  obtain ⟨tails, hnames, hsetters⟩ := Stage.exists_tails fun s
    (hs : s ∈ Stage.parameterStages (client.stagesBeforeSide r create)
      (client.sideParameters create)) => Stage.plain_of_mem_parameterStages hs
  rw [value_definitionStages hc]
  refine ⟨tails, hnames, ?_, ?_⟩
  · have h := client.perm_names_stagesBeforeSide r create
    rw [List.map_append, hnames]
    refine (h.append_right _).trans (.of_eq ?_)
    simp only [List.cons_append, List.append_assoc, List.map_append, List.map_map]
    rfl
  · have h := client.perm_map_stagesBeforeSide r create (·.setter)
      fun _ p => congrArg some (propertySetter_eq _ p)
    have hparent : (client.definedParent? r create).toList.map (·.setter) =
        (client.definedParent? r create).toList.map
          fun _ => some ("with" ++ ("Existing" ++ client.parentName r create)) :=
      List.map_congr_left fun s hs => setter_of_parentStage (Option.mem_toList.mp hs)
    have hid (stages : List Stage) :
        stages.filterMap (·.setter) = (stages.map (·.setter)).filterMap id := by
      rw [List.filterMap_map]
      rfl
    rw [List.filterMap_append, hsetters, hid]
    refine ((h.filterMap id).append_right _).trans (.of_eq ?_)
    rw [hparent]
    simp only [List.filterMap_cons, Stage.blank, Stage.create, id_eq, List.filterMap_append,
      List.filterMap_map, List.filterMap_eq_map', Function.comp_def, List.cons_append,
      List.append_assoc, List.map_append, List.map_map]

theorem mem_parentStageNames {name : String}
    (h : name ∈ (client.definedParent? r create).toList.map (·.name)) :
    name ∈ parentStageNames := by
  obtain ⟨s, hs, rfl⟩ := List.mem_map.mp h
  exact name_mem_of_parentStage (Option.mem_toList.mp hs)

/-- Before the stages of parameters, only that of the parent may have the name of a property. -/
theorem nodup_names_stagesBeforeSide_iff
    (hp : ((client.settableProperties r create).map (stageName ·.name)).Nodup) :
    ((client.stagesBeforeSide r create).map (·.name)).Nodup ↔
      ∀ s ∈ client.definedParent? r create,
        s.name ∉ (client.settableProperties r create).map (stageName ·.name) := by
  have hother (name : String) (hn : ¬ "With".toList <+: name.toList)
      (hk : name ∉ parentStageNames) :
      name ∉ (client.definedParent? r create).toList.map (·.name) ++
        (client.settableProperties r create).map (stageName ·.name) := by
    rw [List.mem_append, not_or, stageNames_eq]
    exact ⟨fun hmem => hk (mem_parentStageNames hmem), not_mem_map_append hn⟩
  have hblank := hother "Blank" (by decide) (by decide)
  have hcreate := hother "Create" (by decide) (by decide)
  rw [(client.perm_names_stagesBeforeSide r create).nodup_iff, List.nodup_cons, List.nodup_cons,
    List.mem_cons, not_or, and_iff_right ⟨by decide, hblank⟩, and_iff_right hcreate,
    List.nodup_append', and_iff_right hp]
  cases client.definedParent? r create with
  | none => simp
  | some s => simp

/-- The names of a definition are distinct exactly if the parent is not called like a property, and
all parameters find a name. -/
theorem nodup_names_definitionStages_iff (hc : r.create = some create)
    (hp : ((client.settableProperties r create).map (stageName ·.name)).Nodup)
    (hs : ((client.sideParameters create).map (pascalCase ·.name)).Nodup) :
    ((client.definitionStages r).value.map (·.name)).Nodup ↔
      (∀ s ∈ client.definedParent? r create,
        s.name ∉ (client.settableProperties r create).map (stageName ·.name)) ∧
      LongerNamesFree ((client.stagesBeforeSide r create).map (·.name))
        (client.sideParameters create) := by
  rw [value_definitionStages hc, List.map_append, List.nodup_append',
    nodup_names_stagesBeforeSide_iff hp, Stage.apart_iff_longerNamesFree hs]

/-! ### Setters -/

section

variable {tails : List String}

/-- All parameters find a name exactly if none is called like another one or a property. -/
theorem longerNamesFree_iff_nodup
    (hp : ((client.settableProperties r create).map (stageName ·.name)).Nodup)
    (hs : ((client.sideParameters create).map (pascalCase ·.name)).Nodup)
    (ht : (Stage.parameterStages (client.stagesBeforeSide r create)
      (client.sideParameters create)).map (·.name) = tails.map ("With" ++ ·)) :
    LongerNamesFree ((client.stagesBeforeSide r create).map (·.name))
        (client.sideParameters create) ↔
      ((client.settableProperties r create).map (pascalCase ·.name) ++ tails).Nodup := by
  rw [stageNames_eq, nodup_map_append_iff] at hp
  rw [← Stage.apart_iff_longerNamesFree hs, List.nodup_append', and_iff_right hp, ht,
    nodup_map_append_iff]
  refine and_congr_right fun _ => ?_
  constructor
  · intro h tail hq htail
    exact h (mem_names_of_property hq) (mem_map_append_iff.mpr htail)
  · intro h name hbefore hname
    have hends : endsInParameter name = false → False := by
      intro he
      rw [← ht] at hname
      exact Stage.not_mem_names_parameterStages hbefore he hname
    rw [(client.perm_names_stagesBeforeSide r create).mem_iff, stageNames_eq, List.mem_cons,
      List.mem_cons, List.mem_append] at hbefore
    rcases hbefore with rfl | rfl | hparent | hproperty
    · exact hends (by decide)
    · exact hends (by decide)
    · have hall : ∀ name ∈ parentStageNames, endsInParameter name = false := by decide
      exact hends (hall name (mem_parentStageNames hparent))
    · obtain ⟨tail, hq, rfl⟩ := List.mem_map.mp hproperty
      exact h hq (mem_map_append_iff.mp hname)

/-- Setters of properties are distinct, also from those of parameters, if names are, and a location
is the only region. -/
theorem nodup_setterTails_iff
    (hp : ((client.settableProperties r create).map (stageName ·.name)).Nodup)
    (ht : (Stage.parameterStages (client.stagesBeforeSide r create)
      (client.sideParameters create)).map (·.name) = tails.map ("With" ++ ·)) :
    ((client.settableProperties r create).map (setterTail (client.settableProperties r create)) ++
        tails).Nodup ↔
      ((client.settableProperties r create).map (pascalCase ·.name) ++ tails).Nodup ∧
        (setsRegion (client.settableProperties r create) = true →
          "Region" ∉ (client.settableProperties r create).map (pascalCase ·.name) ++ tails) := by
  rw [stageNames_eq, nodup_map_append_iff] at hp
  cases hr : setsRegion (client.settableProperties r create) with
  | false =>
    rw [map_setterTail_of_not_setsRegion hr]
    exact ⟨fun h => ⟨h, nofun⟩, fun h => h.1⟩
  | true =>
    obtain ⟨hmem, hreplaced⟩ := map_setterTail_of_setsRegion hp hr
    have hfree : "Location" ∉ tails := by
      intro h
      apply Stage.not_mem_names_parameterStages (mem_names_of_property hmem) (by decide)
      rw [ht]
      exact mem_map_append_iff.mpr h
    rw [hreplaced, nodup_replace_iff hp hmem hfree (by decide)]
    exact and_congr_right fun _ => ⟨fun h _ => h, fun h => h rfl⟩

/-- A name that neither the parent nor a stage without a property or a parameter can have. -/
theorem mem_names_definitionStages_iff (tail : String)
    (hnames : ((client.definitionStages r).value.map (·.name)).Perm
      ("Blank" :: "Create" :: ((client.definedParent? r create).toList.map (·.name) ++
        ((client.settableProperties r create).map (pascalCase ·.name) ++ tails).map ("With" ++ ·))))
    (hparent : "With" ++ tail ∉ parentStageNames) :
    "With" ++ tail ∈ (client.definitionStages r).value.map (·.name) ↔
      tail ∈ (client.settableProperties r create).map (pascalCase ·.name) ++ tails := by
  have hblank : "With" ++ tail ≠ "Blank" := append_ne (by decide)
  have hcreate : "With" ++ tail ≠ "Create" := append_ne (by decide)
  rw [hnames.mem_iff, List.mem_cons, List.mem_cons, List.mem_append, mem_map_append_iff]
  constructor
  · rintro (h | h | h | h)
    · exact absurd h hblank
    · exact absurd h hcreate
    · exact absurd (mem_parentStageNames h) hparent
    · exact h
  · exact fun h => .inr (.inr (.inr h))

end

/-- The setters of a definition are distinct exactly if all parameters find a name, a location is
the only region, and nothing but the parent is said to exist. -/
theorem nodup_setters_definitionStages_iff (hc : r.create = some create)
    (hp : ((client.settableProperties r create).map (stageName ·.name)).Nodup)
    (hs : ((client.sideParameters create).map (pascalCase ·.name)).Nodup) :
    ((client.definitionStages r).value.filterMap (·.setter)).Nodup ↔
      LongerNamesFree ((client.stagesBeforeSide r create).map (·.name))
        (client.sideParameters create) ∧
      (setsRegion (client.settableProperties r create) = true →
        "WithRegion" ∉ (client.definitionStages r).value.map (·.name)) ∧
      ∀ s ∈ client.definedParent? r create,
        "WithExisting" ++ client.parentName r create ∉
          (client.definitionStages r).value.map (·.name) := by
  obtain ⟨tails, ht, hnames, hsetters⟩ := exists_parts_of_names hc
  have hexisting : "With" ++ ("Existing" ++ client.parentName r create) ∉ parentStageNames := by
    rw [← String.append_assoc]
    intro h
    have hall : ∀ name ∈ parentStageNames, ¬ "WithExisting".toList <+: name.toList := by decide
    exact append_ne (hall _ h) rfl
  have hregion := mem_names_definitionStages_iff "Region" hnames (by decide)
  have hmember := mem_names_definitionStages_iff _ hnames hexisting
  rw [← String.append_assoc] at hmember
  change "WithRegion" ∈ _ ↔ _ at hregion
  change "WithExisting" ++ _ ∈ _ ↔ _ at hmember
  rw [hsetters.nodup_iff, List.nodup_cons, nodup_map_append_iff,
    and_iff_right (not_mem_map_append (by decide)), List.nodup_append', nodup_setterTails_iff hp ht,
    longerNamesFree_iff_nodup hp hs ht, hregion, hmember]
  have hapart : "Existing" ++ client.parentName r create ∈
        (client.settableProperties r create).map
          (setterTail (client.settableProperties r create)) ++ tails ↔
      "Existing" ++ client.parentName r create ∈
        (client.settableProperties r create).map (pascalCase ·.name) ++ tails := by
    rw [List.mem_append, List.mem_append,
      mem_setterTails_iff (append_ne (by decide)) (append_ne (by decide))]
  cases client.definedParent? r create with
  | none => simp
  | some s =>
    simp only [Option.toList_some, List.map_singleton, List.nodup_singleton,
      List.singleton_disjoint, hapart, true_and, Option.mem_some_iff, forall_eq', and_assoc]

/-! ### Updates -/

theorem plain_of_mem_updateStages {s : Stage} (h : s ∈ client.updateStages r) : s.Plain := by
  unfold updateStages at h
  split at h
  · cases h
  · rw [Stage.addParameters_eq_append, List.mem_append] at h
    rcases h with h | h
    · obtain ⟨p, _, rfl⟩ := List.mem_map.mp h
      exact ⟨_, rfl, rfl⟩
    · exact Stage.plain_of_mem_parameterStages h

theorem nodup_setters_updateStages_iff :
    ((client.updateStages r).filterMap (·.setter)).Nodup ↔
      ((client.updateStages r).map (·.name)).Nodup := by
  obtain ⟨tails, hnames, hsetters⟩ :=
    Stage.exists_tails fun s (hs : s ∈ client.updateStages r) => plain_of_mem_updateStages hs
  rw [hnames, hsetters, nodup_map_append_iff, nodup_map_append_iff]

/-- Stages of an update clash only where a parameter takes its longer name. -/
theorem nodup_names_updateStages_iff {update : Binding} (hu : r.update = some update)
    (hp : ((client.updatableProperties r update).map (stageName ·.name)).Nodup)
    (hs : ((client.sideParameters update).map (pascalCase ·.name)).Nodup) :
    ((client.updateStages r).map (·.name)).Nodup ↔
      LongerNamesFree ((client.updatableProperties r update).map (stageName ·.name))
        (client.sideParameters update) := by
  have hnames : ((client.updatableProperties r update).map Stage.ofUpdatedProperty).map (·.name) =
      (client.updatableProperties r update).map (stageName ·.name) := by
    rw [List.map_map]
    rfl
  unfold updateStages
  rw [hu]
  dsimp only
  rw [Stage.addParameters_eq_append, List.map_append, List.nodup_append', hnames, and_iff_right hp,
    ← hnames, Stage.apart_iff_longerNamesFree hs]

/-- Where properties have distinct names in a definition or an update, and parameters too, it is
told what the rules for names leave open. Names meet if the parent, having given way, is called like
a property, or if a parameter gives way to a name that is taken. Setters meet if a parameter gives
way in vain, if something else is set as the region beside the location, or if something else is set
as the existing parent. -/
theorem kept_apart_iff (client : Client) (r : Resource) :
    (∀ create, r.create = some create →
      ((client.settableProperties r create).map (stageName ·.name)).Nodup →
      ((client.sideParameters create).map (pascalCase ·.name)).Nodup →
      let names := (client.definitionStages r).value.map (·.name)
      let free := LongerNamesFree ((client.stagesBeforeSide r create).map (·.name))
        (client.sideParameters create)
      (names.Nodup ↔
        (∀ s ∈ client.definedParent? r create,
          s.name ∉ (client.settableProperties r create).map (stageName ·.name)) ∧ free) ∧
      (((client.definitionStages r).value.filterMap (·.setter)).Nodup ↔
        free ∧
        (setsRegion (client.settableProperties r create) = true → "WithRegion" ∉ names) ∧
        ∀ s ∈ client.definedParent? r create,
          "WithExisting" ++ client.parentName r create ∉ names)) ∧
    ∀ update, r.update = some update →
      ((client.updatableProperties r update).map (stageName ·.name)).Nodup →
      ((client.sideParameters update).map (pascalCase ·.name)).Nodup →
      let free := LongerNamesFree ((client.updatableProperties r update).map (stageName ·.name))
        (client.sideParameters update)
      (((client.updateStages r).map (·.name)).Nodup ↔ free) ∧
      (((client.updateStages r).filterMap (·.setter)).Nodup ↔ free) := by
  constructor
  · intro create hc hp hs
    exact ⟨nodup_names_definitionStages_iff hc hp hs, nodup_setters_definitionStages_iff hc hp hs⟩
  · intro update hu hp hs
    have hnames := nodup_names_updateStages_iff hu hp hs
    exact ⟨hnames, nodup_setters_updateStages_iff.trans hnames⟩

end Client

namespace Workshop

def query (name : String) : Parameter :=
  ⟨name, name, .query, .string, true, false, false⟩

/-- Tools have names to spare. Parts lie somewhere and are sent from a region, and they have a note
and a parameter of the note, besides which a note is sent. -/
def crowded : Service where
  name := "Workshop"
  schemas :=
    [{ identified "ToolInner" with
        properties := (identified "ToolInner").properties ++
          [⟨"size", "size", .integer, false, false, false, none⟩] },
      { identified "PartInner" with
        properties := (identified "PartInner").properties ++
          ["location", "note", "noteParameter"].map
            fun name => ⟨name, name, .string, false, false, false, none⟩ }]
  groups :=
    [⟨"Tools",
      [operation "createOrUpdate" .put toolUrl
          [⟨"group", "g", .path, .string, true, false, false⟩,
            ⟨"tool", "t", .path, .string, true, false, false⟩, body "ToolInner",
            query "reason"] "ToolInner",
        operation "update" .patch toolUrl [body "ToolInner", query "size"] "ToolInner"]⟩,
      ⟨"Parts",
        [operation "create" .put partUrl
            [⟨"part", "p", .path, .string, true, false, false⟩, body "PartInner", query "region",
              query "note"] "PartInner",
          operation "update" .patch partUrl [body "PartInner", query "note"] "PartInner"]⟩]

end Workshop

namespace Client

theorem kept_apart_in_workshop :
    let client := ((Assembly.fresh .standard).client Workshop.crowded).value
    let create : Binding := ⟨0, 0, ⟨Workshop.toolUrl⟩, "createOrUpdate", some "ToolInner", [0, 1]⟩
    let update : Binding := ⟨0, 0, ⟨Workshop.toolUrl⟩, "update", some "ToolInner", [2, 3]⟩
    ∃ r, client.resources[0]? = some r ∧ r.create = some create ∧ r.update = some update ∧
      (client.settableProperties r create).map (stageName ·.name) =
        ["WithName", "WithType", "WithSize"] ∧
      (client.sideParameters create).map (pascalCase ·.name) = ["Reason"] ∧
      (client.updatableProperties r update).map (stageName ·.name) =
        ["WithName", "WithType", "WithSize"] ∧
      (client.sideParameters update).map (pascalCase ·.name) = ["Size"] ∧
      (let names := (client.definitionStages r).value.map (·.name)
       let free := LongerNamesFree ((client.stagesBeforeSide r create).map (·.name))
         (client.sideParameters create)
       (names.Nodup ↔
         (∀ s ∈ client.definedParent? r create,
           s.name ∉ (client.settableProperties r create).map (stageName ·.name)) ∧ free) ∧
       (((client.definitionStages r).value.filterMap (·.setter)).Nodup ↔
         free ∧
         (setsRegion (client.settableProperties r create) = true → "WithRegion" ∉ names) ∧
         ∀ s ∈ client.definedParent? r create,
           "WithExisting" ++ client.parentName r create ∉ names)) ∧
      (let free := LongerNamesFree
         ((client.updatableProperties r update).map (stageName ·.name))
         (client.sideParameters update)
       (((client.updateStages r).map (·.name)).Nodup ↔ free) ∧
       (((client.updateStages r).filterMap (·.setter)).Nodup ↔ free)) := by
  intro client create update
  have hfound : client.resources[0]?.map (fun r => (r.create, r.update,
        (client.settableProperties r create).map (stageName ·.name),
        (client.updatableProperties r update).map (stageName ·.name))) =
      some (some create, some update, ["WithName", "WithType", "WithSize"],
        ["WithName", "WithType", "WithSize"]) := by decide +kernel
  have hcreate : (client.sideParameters create).map (pascalCase ·.name) = ["Reason"] := by
    decide +kernel
  have hupdate : (client.sideParameters update).map (pascalCase ·.name) = ["Size"] := by
    decide +kernel
  obtain ⟨r, hr, he⟩ := Option.map_eq_some_iff.mp hfound
  obtain ⟨hc, he⟩ := Prod.mk.inj he
  obtain ⟨hu, he⟩ := Prod.mk.inj he
  obtain ⟨hsettable, hupdatable⟩ := Prod.mk.inj he
  have h := client.kept_apart_iff r
  refine ⟨r, hr, hc, hu, hsettable, hcreate, hupdatable, hupdate, ?_, ?_⟩
  · exact h.1 create hc (by rw [hsettable]; decide) (by rw [hcreate]; decide)
  · exact h.2 update hu (by rw [hupdatable]; decide) (by rw [hupdate]; decide)

/-- Parts can be given a region in two ways, and their notes go by the name of a property. -/
theorem clashes_in_workshop :
    let client := ((Assembly.fresh .standard).client Workshop.crowded).value
    let create : Binding := ⟨1, 1, ⟨Workshop.partUrl⟩, "create", some "PartInner", [0, 1]⟩
    let update : Binding := ⟨1, 1, ⟨Workshop.partUrl⟩, "update", some "PartInner", [2, 3]⟩
    ∃ r, client.resources[1]? = some r ∧ r.create = some create ∧ r.update = some update ∧
      ((client.settableProperties r create).map (stageName ·.name)).Nodup ∧
      ((client.sideParameters create).map (pascalCase ·.name)).Nodup ∧
      ((client.updatableProperties r update).map (stageName ·.name)).Nodup ∧
      ((client.sideParameters update).map (pascalCase ·.name)).Nodup ∧
      ¬ ((client.definitionStages r).value.map (·.name)).Nodup ∧
      ¬ ((client.definitionStages r).value.filterMap (·.setter)).Nodup ∧
      ¬ ((client.updateStages r).map (·.name)).Nodup ∧
      ¬ ((client.updateStages r).filterMap (·.setter)).Nodup := by
  intro client create update
  have hfound : (client.resources[1]?.any fun r =>
      decide (r.create = some create ∧ r.update = some update ∧
        ((client.settableProperties r create).map (stageName ·.name)).Nodup ∧
        ((client.sideParameters create).map (pascalCase ·.name)).Nodup ∧
        ((client.updatableProperties r update).map (stageName ·.name)).Nodup ∧
        ((client.sideParameters update).map (pascalCase ·.name)).Nodup ∧
        ¬ ((client.definitionStages r).value.map (·.name)).Nodup ∧
        ¬ ((client.definitionStages r).value.filterMap (·.setter)).Nodup ∧
        ¬ ((client.updateStages r).map (·.name)).Nodup ∧
        ¬ ((client.updateStages r).filterMap (·.setter)).Nodup)) = true := by
    decide +kernel
  obtain ⟨r, hr, h⟩ := (Option.any_eq_true _ _).mp hfound
  exact ⟨r, hr, of_decide_eq_true h⟩

end Client

end Lifecycle
