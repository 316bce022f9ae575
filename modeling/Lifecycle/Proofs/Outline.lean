import Lifecycle.Assembly
import Lifecycle.Proofs.Indexed

/-!
# What classification leaves alone

The outline of a client has its names, schemas, properties and methods, and nothing bound. All that
classification reads apart from creates can be read off the outline, and no binding changes it.
-/
namespace Lifecycle

def Resource.outline (r : Resource) : Resource :=
  { r with
    category := .immutable
    create := none
    update := none
    refresh := none
    delete := none
    actions := none
    extraMethods := [] }

def Collection.outline (c : Collection) : Collection :=
  { c with creates := [], updates := [], refreshes := [], deletes := [], extraMethods := [] }

/-- The client before any classification. -/
def Client.outline (client : Client) : Client :=
  { client with
    resources := client.resources.map Resource.outline
    collections := client.collections.map Collection.outline }

@[simp] theorem Resource.outline_bind (r : Resource) (b : Binding) (phase : Phase) :
    (r.bind b phase).outline = r.outline := by
  cases phase <;> rfl

@[simp] theorem Collection.outline_enlist (c : Collection) (resource : Nat) (phase : Phase) :
    (c.enlist resource phase).outline = c.outline := by
  cases phase <;> rfl

@[simp] theorem Resource.binding?_outline (r : Resource) (phase : Phase) :
    r.outline.binding? phase = none := by
  cases phase <;> rfl

@[simp] theorem Collection.bound_outline (c : Collection) (phase : Phase) :
    c.outline.bound phase = [] := by
  cases phase <;> rfl

namespace Client

theorem getElem?_outline (client : Client) (i : Nat) :
    client.outline.resources[i]? = client.resources[i]?.map Resource.outline :=
  List.getElem?_map

theorem methods_outline (client : Client) (collection : Nat) :
    client.outline.methods collection = client.methods collection := by
  unfold methods outline
  rw [List.getElem?_map]
  cases client.collections[collection]? <;> rfl

/-- Wrappers are found in the outline, which no binding changes. -/
theorem wrapperOf?_outline (client : Client) (candidates : List Nat) (schema : String) :
    client.outline.wrapperOf? candidates schema = client.wrapperOf? candidates schema := by
  unfold wrapperOf?
  congr 1
  funext i
  rw [getElem?_outline]
  cases client.resources[i]? <;> rfl

theorem resourceNamed?_outline (client : Client) (name : String) :
    client.outline.resourceNamed? name = client.resourceNamed? name := by
  unfold resourceNamed? outline
  rw [List.findIdx?_map]
  rfl

theorem collectionNamed?_outline (client : Client) (name : String) :
    client.outline.collectionNamed? name = client.collectionNamed? name := by
  unfold collectionNamed? outline
  rw [List.findIdx?_map]
  rfl

theorem resourcePositions_outline (client : Client) :
    client.outline.resourcePositions = client.resourcePositions := by
  unfold resourcePositions outline
  rw [List.length_map]

theorem collectionPositions_outline (client : Client) :
    client.outline.collectionPositions = client.collectionPositions := by
  unfold collectionPositions outline
  rw [List.length_map]

theorem name_eq_of_outline {a b : Client} (h : a.outline = b.outline) : a.name = b.name := by
  have hn := congrArg Client.name h
  exact hn

theorem schemas_eq_of_outline {a b : Client} (h : a.outline = b.outline) :
    a.schemas = b.schemas := by
  have hs := congrArg Client.schemas h
  exact hs

theorem methods_eq_of_outline {a b : Client} (h : a.outline = b.outline) (collection : Nat) :
    a.methods collection = b.methods collection := by
  rw [← methods_outline, h, methods_outline]

theorem resourcePositions_congr {a b : Client} (h : a.outline = b.outline) :
    a.resourcePositions = b.resourcePositions := by
  rw [← resourcePositions_outline, h, resourcePositions_outline]

theorem collectionPositions_congr {a b : Client} (h : a.outline = b.outline) :
    a.collectionPositions = b.collectionPositions := by
  rw [← collectionPositions_outline, h, collectionPositions_outline]

/-! ### Changes that keep the outline -/

theorem outline_modifyResource (client : Client) (i : Nat) {change : Resource → Resource}
    (h : ∀ r, (change r).outline = r.outline) :
    (client.modifyResource i change).outline = client.outline := by
  unfold outline modifyResource
  congr 1
  exact Indexed.map_modify_of_eq h i client.resources

theorem outline_modifyCollection (client : Client) (i : Nat) {change : Collection → Collection}
    (h : ∀ c, (change c).outline = c.outline) :
    (client.modifyCollection i change).outline = client.outline := by
  unfold outline modifyCollection
  congr 1
  exact Indexed.map_modify_of_eq h i client.collections

theorem outline_bind (client : Client) (phase : Phase) (b : Binding) :
    (client.bind phase b).outline = client.outline := by
  rw [bind, outline_modifyCollection _ _ fun c => Collection.outline_enlist c _ _,
    outline_modifyResource _ _ fun r => Resource.outline_bind r b phase]

/-- Extra methods are no part of the outline. -/
theorem outline_addExtras (client : Client) : client.addExtras.outline = client.outline := by
  unfold addExtras outline
  simp only [List.map_map]
  rfl

end Client

/-- Nothing is bound in a client that has just been made. -/
theorem Assembly.outline_unclassified (a : Assembly) (service : Service) :
    (a.unclassified service).outline = a.unclassified service := by
  unfold Client.outline unclassified
  simp only [List.map_map]
  rfl

end Lifecycle
