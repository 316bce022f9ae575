import Lifecycle.Service.Encode
import Lifecycle.Stage

/-!
# Reports

A report tells what a client offers, collection by collection: its methods, and for each resource
created through it the lifecycle operations and the builder stages. Other resources are left out.
-/

namespace Lifecycle

open Json

/-- A lifecycle operation of a resource. -/
structure OperationReport where
  method : String
  url : String
  bodySchema : Option String
  /-- names of all methods of the operation -/
  references : List String

structure ResourceReport where
  name : String
  schema : String
  category : Category
  create : Option OperationReport
  update : Option OperationReport
  refresh : Option OperationReport
  delete : Option OperationReport
  /-- names of the actions -/
  actions : List String
  define : Option DefineMethod
  definitionStages : List Stage
  updateStages : List Stage
  extraMethods : List ExtraMethod

structure CollectionReport where
  name : String
  /-- names of the methods -/
  methods : List String
  /-- the resources created through the collection -/
  resources : List ResourceReport
  extraMethods : List ExtraMethod

structure Report where
  name : String
  collections : List CollectionReport

def Report.resourceCount (report : Report) : Nat :=
  (report.collections.flatMap (·.resources)).length

namespace Client

def reportOperation (client : Client) (b : Binding) : OperationReport :=
  { method := b.method
    url := b.url.path
    bodySchema := b.bodySchema
    references := (client.references b).map (·.name) }

def reportResource (client : Client) (r : Resource) : Logged ResourceReport := do
  let define ← client.defineMethod r
  let definitionStages ← client.definitionStages r
  pure
    { name := r.name
      schema := r.schema.name
      category := r.category
      create := r.create.map client.reportOperation
      update := r.update.map client.reportOperation
      refresh := r.refresh.map client.reportOperation
      delete := r.delete.map client.reportOperation
      actions := match r.actions with
        | some actions => (client.actionMethods actions).map (·.name)
        | none => []
      define
      definitionStages
      updateStages := client.updateStages r
      extraMethods := r.extraMethods }

def reportCollection (client : Client) (c : Collection) : Logged CollectionReport := do
  let resources ← (c.creates.filterMap (client.resources[·]?)).mapM client.reportResource
  pure
    { name := c.name
      methods := c.methods.map (·.name)
      resources
      extraMethods := c.extraMethods }

def report (client : Client) : Logged Report := do
  let collections ← client.collections.mapM client.reportCollection
  pure ⟨client.name, collections⟩

end Client

/-! ### As JSON -/

def DefineMethod.toJson (d : DefineMethod) : Value :=
  .object [("name", .string d.name), ("parameter", Value.optional Parameter.toJson d.parameter)]

def StageKind.toJson : StageKind → Value
  | .blank => .object [("kind", .string "blank")]
  | .parent name parameters =>
    .object [("kind", .string "parent"), ("parent_name", .string name),
      ("parameters", .array (parameters.map Parameter.toJson))]
  | .property p => .object [("kind", .string "property"), ("property", p.toJson)]
  | .parameter p => .object [("kind", .string "misc"), ("parameter", p.toJson)]
  | .create => .object [("kind", .string "create")]

def Stage.toJson (s : Stage) : Value :=
  .object
    [("name", .string s.name), ("method_name", Value.optional .string s.setter),
      ("kind", s.kind.toJson), ("mandatory", .bool s.mandatory)]

def ExtraMethod.toJson (m : ExtraMethod) : Value :=
  .object
    [("name", .string m.name), ("signature", .string m.signature),
      ("description", .string m.description)]

def OperationReport.toJson (r : OperationReport) : Value :=
  .object <|
    [("method_name", .string r.method), ("url_path", .string r.url)]
    ++ optionalMember "body_model" .string r.bodySchema
    ++ [("method_references", .strings r.references)]

def ResourceReport.toJson (r : ResourceReport) : Value :=
  .object
    [("name", .string r.name), ("inner_model", .string r.schema),
      ("category", .string r.category.display),
      ("create", Value.optional OperationReport.toJson r.create),
      ("update", Value.optional OperationReport.toJson r.update),
      ("refresh", Value.optional OperationReport.toJson r.refresh),
      ("delete", Value.optional OperationReport.toJson r.delete),
      ("actions", .strings r.actions),
      ("define_method", Value.optional DefineMethod.toJson r.define),
      ("definition_stages", .array (r.definitionStages.map Stage.toJson)),
      ("update_stages", .array (r.updateStages.map Stage.toJson)),
      ("additional_methods", .array (r.extraMethods.map ExtraMethod.toJson))]

def CollectionReport.toJson (c : CollectionReport) : Value :=
  .object
    [("name", .string c.name), ("methods", .strings c.methods),
      ("resources", .array (c.resources.map ResourceReport.toJson)),
      ("additional_methods", .array (c.extraMethods.map ExtraMethod.toJson))]

def Report.toJson (r : Report) : Value :=
  .object
    [("name", .string r.name), ("collections", .array (r.collections.map CollectionReport.toJson))]

end Lifecycle
