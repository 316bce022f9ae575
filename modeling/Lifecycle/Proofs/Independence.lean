import Lifecycle.Proofs.Sequence

/-!
# Trials that do not meet

Two trials against different collections can be made in either order, as long as no resource gets
its create from both. Each then finds what it would have found alone, and they write to different
resources and collections.
-/
namespace Lifecycle

open Indexed

namespace Client

variable {client : Client} {c₁ c₂ : Nat} {l₁ l₂ : List Nat}

/-- A trial does not create what it finds no create for. -/
theorem isCreated_settle_of_not_mem {found : List Creation} {i : Nat}
    (h : i ∉ found.map Creation.resource) (collection : Nat) :
    (client.settle collection found).isCreated i = client.isCreated i := by
  have hp : patch Creation.resource client.settled found i = id :=
    funext (patch_of_not_mem h)
  unfold isCreated settle
  rw [List.getElem?_mapIdx, hp, Option.map_id_fun, id]

/-- A trial finds the same creates after another one that finds none for their resources. -/
theorem creations_settle (h : ((client.creations c₁ l₁).map Creation.resource).Disjoint
      ((client.creations c₂ l₂).map Creation.resource)) :
    (client.settle c₁ (client.creations c₁ l₁)).creations c₂ l₂ = client.creations c₂ l₂ := by
  have ho : (client.settle c₁ (client.creations c₁ l₁)).outline = client.outline :=
    client.outline_settle _ _
  change firsts _ _ (offers _ c₂ l₂ _) = firsts _ _ (client.offers c₂ l₂ _)
  rw [offers_congr ho]
  apply firsts_congr
  · -- what was created before is not found by the first trial
    intro i hi
    have hn : i ∉ (client.creations c₁ l₁).map Creation.resource := by
      intro hm
      have hf := (mem_keys_firsts.mp hm).1
      rw [hi] at hf
      cases hf
    exact (isCreated_settle_of_not_mem hn c₁).trans hi
  · intro i hi
    have hn : i ∉ (client.creations c₁ l₁).map Creation.resource := fun hm => h hm hi
    exact (isCreated_settle_of_not_mem hn c₁).trans (mem_keys_firsts.mp hi).1

/-- What two trials do, each by what it would do alone. -/
theorem classify_classify (h : ((client.creations c₁ l₁).map Creation.resource).Disjoint
      ((client.creations c₂ l₂).map Creation.resource)) :
    ((client.classify c₁ l₁).value.classify c₂ l₂).value =
      { client with
        resources := (client.resources.mapIdx (patch Creation.resource client.settled
          (client.creations c₁ l₁))).mapIdx (patch Creation.resource client.settled
            (client.creations c₂ l₂))
        collections := (client.collections.modify c₁ (client.listed
          (client.creations c₁ l₁))).modify c₂ (client.listed (client.creations c₂ l₂)) } := by
  have ho : (client.settle c₁ (client.creations c₁ l₁)).outline = client.outline :=
    client.outline_settle _ _
  rw [value_classify, value_classify, creations_settle h, settle, settled_congr ho,
    listed_congr ho]
  rfl

/-- Trials against different collections that create different resources can be swapped. -/
theorem classify_comm (hc : c₁ ≠ c₂)
    (hd : (client.bindCreates c₁ l₁ Category.priority).value.2.Disjoint
      (client.bindCreates c₂ l₂ Category.priority).value.2) :
    ((client.classify c₁ l₁).value.classify c₂ l₂).value =
      ((client.classify c₂ l₂).value.classify c₁ l₁).value := by
  rw [value_bindCreates, value_bindCreates] at hd
  have hf : ((client.creations c₁ l₁).map Creation.resource).Disjoint
      ((client.creations c₂ l₂).map Creation.resource) := hd
  rw [classify_classify hf, classify_classify (List.disjoint_symm hf), mapIdx_patch_comm hf,
    List.modify_modify_ne _ _ _ hc]

theorem classify_comm_in_workshop :
    let client := (Assembly.fresh .standard).unclassified Workshop.service
    let created (collection : Nat) :=
      (client.bindCreates collection [0, 1] Category.priority).value.2
    created 0 = [0] ∧ created 1 = [1] ∧
      ((client.classify 0 [0, 1]).value.classify 1 [0, 1]).value =
        ((client.classify 1 [0, 1]).value.classify 0 [0, 1]).value := by
  intro client created
  have h₀ : created 0 = [0] := by decide +kernel
  have h₁ : created 1 = [1] := by decide +kernel
  have hd : (created 0).Disjoint (created 1) := by
    rw [h₀, h₁]
    simp
  exact ⟨h₀, h₁, classify_comm (by decide) hd⟩

end Client

end Lifecycle
