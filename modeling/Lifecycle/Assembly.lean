import Lifecycle.ExtraMethods
import Lifecycle.Inheritance
import Lifecycle.Settings

/-!
# Assembling clients

An assembly makes clients from services under fixed settings. Schemas that some operation returns
become resources; an assembly remembers the names of all such schemas it has met. The settings may
force a resource to be classified against a collection before all others.
-/

namespace Lifecycle

structure Assembly where
  settings : Settings
  /-- names of schemas that are wrapped as resources, in the order in which they were met -/
  wrapped : List String

def Assembly.fresh (settings : Settings) : Assembly := ⟨settings, []⟩

/-- The names of the schemas that the operations of a service return, items of pages included. -/
def Service.returnedSchemas (service : Service) : List String :=
  ((service.groups.flatMap (·.operations)).filterMap (·.returnType)).filter fun name =>
    (findSchema service.schemas name).isSome

/-- A name put at the end of names, unless it is among them. -/
def meet (names : List String) (name : String) : List String :=
  if names.contains name then names else names ++ [name]

/-- A schema wrapped as a resource of which nothing is known yet. -/
def Resource.ofSchema (schemas : List Schema) (schema : Schema) : Resource :=
  { name := resourceName schema.name
    schema
    properties := mergedProperties schemas schema
    category := .immutable
    create := none
    update := none
    refresh := none
    delete := none
    actions := none
    extraMethods := [] }

def Collection.ofGroup (group : OperationGroup) : Collection :=
  { name := group.name
    methods := group.operations.flatMap Operation.collectionMethods
    creates := []
    updates := []
    refreshes := []
    deletes := []
    extraMethods := [] }

/-- Force a resource to be classified against a collection. -/
def Client.associate (client : Client) (association : Association) : Logged Client := do
  match association.collection with
  | none => pure client
  | some name =>
    match client.resourceNamed? association.resource, client.collectionNamed? name with
    | some resource, some collection =>
      Logged.note (.associated association.resource name)
      client.classify collection [resource]
    | none, _ =>
      Logged.note (.resourceNotFound association.resource)
      pure client
    | some _, none =>
      Logged.note (.collectionNotFound name)
      pure client

/-- Classify all resources against all collections, associated ones first. -/
def Client.classifyAll (client : Client) (associations : List Association) : Logged Client := do
  let client ← associations.foldlM Client.associate client
  client.collectionPositions.foldlM
    (fun client collection => client.classify collection client.resourcePositions) client

namespace Assembly

/-- The assembly after it has met the schemas of a service. -/
def meetSchemas (a : Assembly) (service : Service) : Assembly :=
  { a with wrapped := service.returnedSchemas.foldl meet a.wrapped }

/-- The client of a service before any classification. -/
def unclassified (a : Assembly) (service : Service) : Client :=
  let wrapped := (a.meetSchemas service).wrapped
  { name := service.name
    schemas := service.schemas
    resources := (service.schemas.filter fun s => wrapped.contains s.name).map
      (Resource.ofSchema service.schemas)
    collections := service.groups.map Collection.ofGroup }

/-- The client of a service. It is only classified in the lite mode. -/
def client (a : Assembly) (service : Service) : Logged Client := do
  let client := a.unclassified service
  if a.settings.fluentLite then
    let client ← client.classifyAll a.settings.associations
    pure client.addExtras
  else
    Logged.note .classificationOff
    pure client

end Assembly

def Service.client (service : Service) (settings : Settings) : Logged Client :=
  (Assembly.fresh settings).client service

end Lifecycle
