import Lifecycle.Classification

/-!
# Extra methods

Methods that a classified client offers beyond those of its operations: accessors for the region
and the resource group on resources, and on collections the operations that address a resource by
its identifier. Properties and methods of such names come first, except that no one asks for a
property `regionName`.
-/

namespace Lifecycle

/-- Whether some properties have a location that is a text. -/
def hasLocation (properties : List Property) : Bool :=
  properties.any fun p => p.name == "location" && p.type == .string

namespace Client

/-- The method of a binding that takes all parameters. -/
def fullMethod? (client : Client) (binding : Binding) : Option Method :=
  (client.references binding).find? (!·.requiredOnly)

def regionAccessors (r : Resource) : List ExtraMethod :=
  if r.category != .immutable && hasLocation r.properties && !r.hasProperty "region" then
    [⟨"region", "Region region()", "Gets the region of the resource."⟩,
      ⟨"regionName", "String regionName()", "Gets the name of the resource region."⟩]
  else []

/-- Whether callers name the resource group when they create a resource. -/
def namesResourceGroup (client : Client) (create : Binding) : Bool :=
  match create.url.parameters.find? (·.kind == .resourceGroup), client.fullMethod? create with
  | some group, some m =>
    (m.parametersAt .path).any fun p => Text.equalIgnoringCase p.serializedName group.parameter
  | _, _ => false

/-- The accessor of the name of a resource's group, for resources that can be updated. -/
def groupAccessor (client : Client) (r : Resource) : List ExtraMethod :=
  let inGroup := r.category == .resourceGroupAsParent || r.category == .nestedChild
  if inGroup && r.update.isSome && !r.hasProperty "resourceGroupName"
      && r.create.any client.namesResourceGroup then
    [⟨"resourceGroupName", "String resourceGroupName()", "Gets the name of the resource group."⟩]
  else []

def resourceExtras (client : Client) (r : Resource) : List ExtraMethod :=
  regionAccessors r ++ client.groupAccessor r

def fetchExtras (client : Client) (c : Collection) (r : Resource) : List ExtraMethod :=
  let taken (name : String) : Bool := c.methods.any (·.name == name)
  match r.refresh with
  | none => []
  | some refresh =>
    let responds := (client.references refresh).any (·.kind == .simpleResponse)
    (if taken "getById" then []
      else [⟨"getById", r.name ++ " getById(String id)",
        "Gets the " ++ r.name ++ " by resource ID."⟩])
    ++ (if !responds || taken "getByIdWithResponse" then []
      else [⟨"getByIdWithResponse",
        "Response<" ++ r.name ++ "> getByIdWithResponse(String id, Context context)",
        "Gets the " ++ r.name ++ " by resource ID, with the HTTP response."⟩])

def deleteExtras (client : Client) (c : Collection) (r : Resource) : List ExtraMethod :=
  let taken (name : String) : Bool := c.methods.any (·.name == name)
  match r.delete with
  | none => []
  | some delete =>
    let references := client.references delete
    let responds := references.any (·.kind == .simpleResponse)
    let plain := "Deletes the " ++ r.name ++ " by resource ID."
    (if taken "deleteById" then []
      else [⟨"deleteById", "void deleteById(String id)", plain⟩])
    ++ (if responds && !taken "deleteByIdWithResponse" then
        [⟨"deleteByIdWithResponse",
          "Response<Void> deleteByIdWithResponse(String id, Context context)",
          "Deletes the " ++ r.name ++ " by resource ID, with the HTTP response."⟩]
      else if references.any (·.hasContext) && !responds && !taken "deleteById" then
        [⟨"deleteById", "void deleteById(String id, Context context)", plain⟩]
      else [])

def collectionExtras (client : Client) (c : Collection) : List ExtraMethod :=
  let resources (positions : List Nat) := positions.filterMap (client.resources[·]?)
  (resources c.refreshes).flatMap (client.fetchExtras c)
    ++ (resources c.deletes).flatMap (client.deleteExtras c)

/-- The client with its extra methods added to those already there. -/
def addExtras (client : Client) : Client :=
  { client with
    resources := client.resources.map fun r =>
      { r with extraMethods := r.extraMethods ++ client.resourceExtras r }
    collections := client.collections.map fun c =>
      { c with extraMethods := c.extraMethods ++ client.collectionExtras c } }

end Client

end Lifecycle
