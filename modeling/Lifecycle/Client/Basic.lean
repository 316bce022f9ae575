import Lifecycle.Category
import Lifecycle.Method

/-!
# Clients

A client is what is generated for a service: resources, which wrap the schemas that operations
return, and collections, which offer the methods of an operation group. Resources and collections
refer to each other, and to methods, by position.
-/

namespace Lifecycle

/-- The phases in the life of a resource that operations can be bound to. -/
inductive Phase
  | create
  | update
  | refresh
  | delete
deriving DecidableEq, Repr

/-- An operation bound to a resource. -/
structure Binding where
  /-- position of the resource -/
  resource : Nat
  /-- position of the collection -/
  collection : Nat
  /-- the URL of the create operation, in all phases -/
  url : Url
  /-- name of the method that was found -/
  method : String
  /-- schema of the request body, in create and update -/
  bodySchema : Option String
  /-- positions of all methods of the operation -/
  references : List Nat
deriving DecidableEq, Repr

/-- Actions on a resource: positions of methods in a collection. -/
structure Actions where
  resource : Nat
  collection : Nat
  methods : List Nat
deriving DecidableEq, Repr

/-- A method that is generated beyond those of the operations. -/
structure ExtraMethod where
  name : String
  signature : String
  description : String
deriving DecidableEq, Repr

/-- A schema wrapped as a resource. -/
structure Resource where
  name : String
  schema : Schema
  /-- properties of the schema and its ancestors, those of the furthest ancestor first -/
  properties : List Property
  category : Category
  create : Option Binding
  update : Option Binding
  refresh : Option Binding
  delete : Option Binding
  actions : Option Actions
  extraMethods : List ExtraMethod
deriving DecidableEq, Repr

namespace Resource

def binding? (r : Resource) : Phase → Option Binding
  | .create => r.create
  | .update => r.update
  | .refresh => r.refresh
  | .delete => r.delete

/-- The resource with an operation bound in a phase. -/
def bind (r : Resource) (binding : Binding) : Phase → Resource
  | .create => { r with create := some binding }
  | .update => { r with update := some binding }
  | .refresh => { r with refresh := some binding }
  | .delete => { r with delete := some binding }

end Resource

/-- The interface of an operation group. -/
structure Collection where
  name : String
  methods : List Method
  /-- positions of the resources created, updated, fetched and deleted through the collection -/
  creates : List Nat
  updates : List Nat
  refreshes : List Nat
  deletes : List Nat
  extraMethods : List ExtraMethod

namespace Collection

/-- The resources that a phase of is bound to the collection. -/
def bound (c : Collection) : Phase → List Nat
  | .create => c.creates
  | .update => c.updates
  | .refresh => c.refreshes
  | .delete => c.deletes

/-- The collection with one more resource that a phase of is bound to it. -/
def enlist (c : Collection) (resource : Nat) : Phase → Collection
  | .create => { c with creates := c.creates ++ [resource] }
  | .update => { c with updates := c.updates ++ [resource] }
  | .refresh => { c with refreshes := c.refreshes ++ [resource] }
  | .delete => { c with deletes := c.deletes ++ [resource] }

end Collection

structure Client where
  /-- name of the service -/
  name : String
  schemas : List Schema
  resources : List Resource
  collections : List Collection

namespace Client

/-- The position of the first resource of a name. -/
def resourceNamed? (client : Client) (name : String) : Option Nat :=
  client.resources.findIdx? (·.name == name)

def collectionNamed? (client : Client) (name : String) : Option Nat :=
  client.collections.findIdx? (·.name == name)

def schema? (client : Client) (name : String) : Option Schema :=
  findSchema client.schemas name

/-- What a phase of the resource at a position is bound to. -/
def bindingAt? (client : Client) (phase : Phase) (i : Nat) : Option Binding :=
  client.resources[i]?.bind (·.binding? phase)

def methods (client : Client) (collection : Nat) : List Method :=
  match client.collections[collection]? with
  | some c => c.methods
  | none => []

/-- Methods of a collection by their positions. -/
def methodsAt (client : Client) (collection : Nat) (positions : List Nat) : List Method :=
  let methods := client.methods collection
  positions.filterMap (methods[·]?)

/-- The methods that a binding refers to. -/
def references (client : Client) (binding : Binding) : List Method :=
  client.methodsAt binding.collection binding.references

def actionMethods (client : Client) (actions : Actions) : List Method :=
  client.methodsAt actions.collection actions.methods

def modifyResource (client : Client) (resource : Nat) (change : Resource → Resource) : Client :=
  { client with resources := client.resources.modify resource change }

def modifyCollection (client : Client) (collection : Nat) (change : Collection → Collection) :
    Client :=
  { client with collections := client.collections.modify collection change }

/-- The client with a phase of a resource bound; the collection lists the resource. -/
def bind (client : Client) (phase : Phase) (binding : Binding) : Client :=
  (client.modifyResource binding.resource (·.bind binding phase)).modifyCollection
    binding.collection (·.enlist binding.resource phase)

def resourcePositions (client : Client) : List Nat :=
  List.range client.resources.length

def collectionPositions (client : Client) : List Nat :=
  List.range client.collections.length

end Client

end Lifecycle
