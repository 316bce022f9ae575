import Lifecycle.ExtraMethods
import Lifecycle.Inheritance

/-!
# Builder stages

A resource is defined through a chain of stages: `Blank`, the parent, required properties, `Create`,
then optional properties and the parameters sent in headers and queries. An update is a list of
optional stages. Each stage is an interface with a setter; names of stages are kept apart.
-/

namespace Lifecycle

/-- What a stage sets. -/
inductive StageKind
  | blank
  /-- the parent of the resource, by the path parameters that address it -/
  | parent (name : String) (parameters : List Parameter)
  | property (property : Property)
  /-- a parameter sent in a header or the query -/
  | parameter (parameter : Parameter)
  | create
deriving DecidableEq, Repr

structure Stage where
  /-- name of the interface -/
  name : String
  /-- the method that leads on; `Blank` has none -/
  setter : Option String
  kind : StageKind
  /-- part of the chain from `Blank` to `Create` -/
  mandatory : Bool
deriving DecidableEq, Repr

/-- Where the definition of a resource starts. -/
structure DefineMethod where
  name : String
  /-- takes the name of the resource, unless that is fixed -/
  parameter : Option Parameter
deriving DecidableEq, Repr

/-- Properties that come before all others. -/
def leadingProperties : List String := ["location", "tags"]

/-- Properties with the leading ones put in front. -/
def leadingFirst (properties : List Property) : List Property :=
  leadingProperties.filterMap (fun name => properties.find? (·.name == name))
    ++ properties.filter fun p => !leadingProperties.contains p.name

/-- Whether callers may set a property. The identifier they never may. -/
def Property.settable (p : Property) : Bool :=
  !p.readOnly && !p.constant && p.name != "id"

namespace Client

/-- The properties of the request body of an operation on a resource. -/
def bodyProperties (client : Client) (r : Resource) (b : Binding) : List Property :=
  match b.bodySchema with
  | none => []
  | some body =>
    if body == r.schema.name then r.properties
    else
      match client.schema? body with
      | some schema => mergedProperties client.schemas schema
      | none => []

/-- The properties of the request body that can be set. -/
def settableProperties (client : Client) (r : Resource) (b : Binding) : List Property :=
  (leadingFirst (client.bodyProperties r b)).filter (·.settable)

/-- The properties that can be set in an update, which does not move a resource. -/
def updatableProperties (client : Client) (r : Resource) (b : Binding) : List Property :=
  (client.settableProperties r b).filter fun p =>
    !(hasLocation r.properties && p.name == "location")

/-- The parameters of an operation that callers send in headers and the query. -/
def sideParameters (client : Client) (b : Binding) : List Parameter :=
  match client.fullMethod? b with
  | some m => m.parameters.filter fun p => p.location == .header || p.location == .query
  | none => []

/-- The parameters of an operation that callers put into its path. -/
def pathParameters (client : Client) (b : Binding) : List Parameter :=
  match client.fullMethod? b with
  | some m => m.parametersAt .path
  | none => []

/-- The wire name of the parameter that names the resource: the innermost one of the URL. -/
def nameParameter? (create : Binding) : Option String :=
  create.url.parameters.head?.map (·.parameter)

/-- Whether the name of a resource is fixed and not chosen by callers. -/
def hasFixedName (client : Client) (create : Binding) : Logged Bool :=
  match nameParameter? create with
  | none => pure true
  | some name =>
    match (client.fullMethod? create).bind fun m =>
        m.operation.parameters.find? (·.serializedName == name) with
    | some p => pure (p.constant || p.fromClient)
    | none => do
      Logged.note (.nameParameterUnknown name create.method)
      pure true

/-- The parameter of a create through which callers name the resource. -/
def chosenName? (client : Client) (create : Binding) : Option Parameter := do
  let name ← nameParameter? create
  (client.pathParameters create).find? (·.serializedName == name)

/-- What follows `createOrUpdate` or `create` in the name of a method. -/
def createdName? (method : String) : Option String :=
  ((Text.dropHead? "createOrUpdate".toList method.toList).or
    (Text.dropHead? "create".toList method.toList)).map String.ofList

def defineName (r : Resource) (create : Binding) : String :=
  "define" ++ pascalCase ((createdName? create.method).getD r.name)

/-- The method that starts the definition of a resource, if it can be created. -/
def defineMethod (client : Client) (r : Resource) : Logged (Option DefineMethod) := do
  match r.create with
  | none => pure none
  | some create =>
    let name := defineName r create
    Logged.note (.defined r.name name)
    let parameter ←
      if ← client.hasFixedName create then pure none
      else do
        let parameter := client.chosenName? create
        Logged.noteIf parameter.isNone (.nameParameterMissing name)
        pure parameter
    pure (some ⟨name, parameter⟩)

end Client

def stageName (name : String) : String :=
  "With" ++ pascalCase name

def setterName (name : String) : String :=
  "with" ++ pascalCase name

/-- The setter for a property among others; a location is set as a region. -/
def propertySetter (properties : List Property) (p : Property) : String :=
  if p.name == "location" && hasLocation properties then
    if properties.any (·.name == "region") then "withLocation" else "withRegion"
  else setterName p.name

namespace Stage

def blank : Stage := ⟨"Blank", none, .blank, true⟩

def create : Stage := ⟨"Create", some "create", .create, true⟩

def ofProperty (properties : List Property) (mandatory : Bool) (p : Property) : Stage :=
  ⟨stageName p.name, some (propertySetter properties p), .property p, mandatory⟩

def ofUpdatedProperty (p : Property) : Stage :=
  ⟨stageName p.name, some (setterName p.name), .property p, false⟩

/-- The stage of a parameter after some others, told apart from them by its name. -/
def ofParameter (others : List Stage) (p : Parameter) : Stage :=
  let taken := others.any (·.name == stageName p.name)
  let name := if taken then p.name ++ "Parameter" else p.name
  ⟨stageName name, some (setterName name), .parameter p, false⟩

/-- Some stages followed by those of parameters. -/
def addParameters (stages : List Stage) : List Parameter → List Stage
  | [] => stages
  | p :: rest => addParameters (stages ++ [ofParameter stages p]) rest

end Stage

/-- The name of the stage that sets the parent, for categories with one. -/
def Category.parentStage? : Category → Option String
  | .resourceGroupAsParent => some "WithResourceGroup"
  | .nestedChild => some "WithParentResource"
  | .scopeNestedChild => some "WithParentResource"
  | .scopeAsParent => some "WithScope"
  | .subscriptionAsParent => none
  | .immutable => none

/-- What the innermost segment that parameters address is called; a segment without a literal goes
by its parameter. -/
def addressedName? (url : Url) (parameters : List Parameter) : Option String :=
  (url.parameters.find? fun s => parameters.any (·.serializedName == s.parameter)).map fun s =>
    pascalCase (singular (if s.literal.isEmpty then s.parameter else s.literal))

namespace Client

/-- The path parameters that address the parent: all but the one that names the resource. -/
def parentParameters (client : Client) (create : Binding) : Logged (List Parameter) := do
  let fixed ← client.hasFixedName create
  pure ((client.pathParameters create).filter fun p =>
    fixed || nameParameter? create != some p.serializedName)

/-- What the parent of a resource is called, if the URL tells. -/
def parentName? (r : Resource) (create : Binding) (parameters : List Parameter) : Option String :=
  if r.category == .resourceGroupAsParent then some "ResourceGroup"
  else addressedName? create.url parameters

/-- What the stage of the parent calls it. -/
def parentName (client : Client) (r : Resource) (create : Binding) : String :=
  (parentName? r create (client.parentParameters create).value).getD "Parent"

/-- The stage that sets the parent of a resource, if its category has one. -/
def parentStage (client : Client) (r : Resource) (create : Binding) (properties : List Property)
    (side : List Parameter) : Option Stage :=
  r.category.parentStage?.map fun base =>
    let taken := properties.any (stageName ·.name == base) || side.any (stageName ·.name == base)
    ⟨if taken then base ++ "Stage" else base, some ("withExisting" ++ client.parentName r create),
      .parent (client.parentName r create) (client.parentParameters create).value, true⟩

/-- Log what the stage of the parent had to do without. -/
def noteParent (client : Client) (r : Resource) (create : Binding) : Logged Unit := do
  if r.category.parentStage?.isSome then
    let parameters ← client.parentParameters create
    Logged.noteIf (parentName? r create parameters).isNone
      (.parentNameMissing create.url.path r.name)

/-- Required properties split into a location in front, which comes before the parent, and the
rest. -/
def splitLocation (r : Resource) : List Property → List Property × List Property
  | [] => ([], [])
  | p :: rest =>
    if hasLocation r.properties && p.name == "location" then ([p], rest) else ([], p :: rest)

/-- The stages of a definition before those of parameters. -/
def stagesBeforeSide (client : Client) (r : Resource) (create : Binding) : List Stage :=
  let properties := client.settableProperties r create
  let split := splitLocation r (properties.filter (·.required))
  [Stage.blank] ++ split.1.map (.ofProperty properties true)
    ++ (client.parentStage r create properties (client.sideParameters create)).toList
    ++ split.2.map (.ofProperty properties true) ++ [Stage.create]
    ++ (properties.filter (!·.required)).map (.ofProperty properties false)

/-- The stages of the definition of a resource, in the order of the chain. -/
def definitionStages (client : Client) (r : Resource) : Logged (List Stage) := do
  match r.create with
  | none => pure []
  | some create =>
    client.noteParent r create
    pure (Stage.addParameters (client.stagesBeforeSide r create) (client.sideParameters create))

def updateStages (client : Client) (r : Resource) : List Stage :=
  match r.update with
  | none => []
  | some update =>
    Stage.addParameters ((client.updatableProperties r update).map .ofUpdatedProperty)
      (client.sideParameters update)

end Client

end Lifecycle
