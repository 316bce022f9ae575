import Lifecycle.Stage

/-!
# Samples

An example of an operation becomes a sample of how the client is used: a call of a method of a
collection, the definition of a resource, or its update. Samples of one operation are kept together
under the names of group and operation.
-/

namespace Lifecycle

open Json

/-- A call with its arguments; an argument without an example value is `null`. -/
structure Call where
  method : String
  arguments : List Value

/-- What a sample tells about where it comes from. -/
structure SampleHead where
  name : String
  originalFile : Option String
  /-- name of the collection -/
  collection : String

/-- The call of a method of a collection. -/
structure CallSample where
  head : SampleHead
  method : String
  /-- names of the parameters with their values -/
  parameters : List (String × Value)

/-- The definition of a resource. -/
structure CreateSample where
  head : SampleHead
  resource : String
  define : Call
  /-- setters in the order of the chain -/
  stages : List Call

/-- The update of a resource. -/
structure UpdateSample where
  head : SampleHead
  resource : String
  /-- fetches the resource that is updated -/
  fetch : CallSample
  stages : List Call

structure OperationSamples where
  group : String
  method : String
  calls : List CallSample
  creates : List CreateSample
  updates : List UpdateSample

/-- No samples of an operation of a group yet. -/
def OperationSamples.none (group operation : String) : OperationSamples :=
  ⟨pascalCase group, pascalCase operation, [], [], []⟩

/-- The name under which the samples of an operation go. -/
def OperationSamples.name (s : OperationSamples) : String :=
  s.group ++ s.method

/-- Whether a method is one to give samples of: synchronous and with a context. -/
def Method.isSampled (m : Method) : Bool :=
  m.kind.inCollection && m.hasContext

/-- Whether the examples of a method's operation become samples. -/
def Method.hasSamples (m : Method) : Bool :=
  m.isSampled && m.sendsJson

namespace Client

/-- Whether creates and updates of a resource go by the same method. -/
def createsByUpdate (client : Client) (r : Resource) : Bool :=
  match r.create, r.update with
  | some create, some update =>
    match (client.references create).head?, (client.references update).head? with
    | some c, some u => c.name == u.name
    | _, _ => false
  | _, _ => false

/-- Positions of the methods that creates and updates of a collection's resources refer to. -/
def boundMethods (client : Client) (c : Collection) : List Nat :=
  let references (phase : Phase) : List Nat :=
    (c.bound phase).flatMap fun i => (client.bindingAt? phase i).elim [] (·.references)
  references .create ++ references .update

/-- The methods of a collection that no create or update of a resource refers to. -/
def plainMethods (client : Client) (c : Collection) : List Method :=
  let bound := client.boundMethods c
  (c.methods.zipIdx.filter fun p => !bound.contains p.2).map (·.1)

end Client

namespace Example

def valueOf (e : Example) (p : Parameter) : Value :=
  (e.parameters.lookup p.serializedName).getD .null

/-- The value that an example gives for a property, which is found in the body. -/
def bodyValue (e : Example) (m : Method) (p : Property) : Value :=
  match (m.parameters.find? (·.isBody)).bind fun body => e.parameters.lookup body.serializedName with
  | some body => (body.at? p.path).getD .null
  | none => .null

def call (e : Example) (collection : String) (m : Method) (name : String) : Logged CallSample := do
  let parameters ← m.parameters.mapM fun p => do
    let value := e.valueOf p
    Logged.noteIf (value.isNull && p.required) (.parameterWithoutValue p.name)
    pure (p.name, value)
  pure ⟨⟨name, e.originalFile, collection⟩, m.name, parameters⟩

/-- The arguments of the setter of a stage; no arguments mean no call. -/
def stageArguments (e : Example) (m : Method) (stage : Stage) : List Value :=
  let single (value : Value) : List Value :=
    if stage.mandatory || !value.isNull then [value] else []
  match stage.kind with
  | .blank => []
  | .create => []
  | .parent _ parameters => parameters.map e.valueOf
  | .parameter p => single (e.valueOf p)
  | .property p => single (e.bodyValue m p)

def stageCalls (e : Example) (m : Method) : List Stage → Logged (List Call)
  | [] => pure []
  | stage :: rest => do
    let arguments := e.stageArguments m stage
    Logged.noteIf (stage.mandatory && arguments.any (·.isNull)) (.stageWithoutValue stage.name)
    let calls ← e.stageCalls m rest
    match stage.setter with
    | some setter => pure (if arguments.isEmpty then calls else ⟨setter, arguments⟩ :: calls)
    | none => pure calls

def create (e : Example) (client : Client) (r : Resource) (m : Method) (name : String) :
    Logged (Option CreateSample) := do
  match r.create, ← client.defineMethod r with
  | some create, some define =>
    let arguments := (define.parameter.map e.valueOf).toList
    Logged.noteIf (arguments.any (·.isNull)) (.defineWithoutValue define.name)
    let stages ← e.stageCalls m (← client.definitionStages r)
    let collection := (client.collections[create.collection]?.map (·.name)).getD ""
    pure (some ⟨⟨name, e.originalFile, collection⟩, r.name, ⟨define.name, arguments⟩, stages⟩)
  | _, _ => pure none

/-- The sample of the update of a resource, which is fetched by a given method before. -/
def update (e : Example) (client : Client) (r : Resource) (fetch m : Method) (name : String) :
    Logged (Option UpdateSample) := do
  match r.update with
  | some update =>
    let collection := (client.collections[update.collection]?.map (·.name)).getD ""
    let stages ← e.stageCalls m (client.updateStages r)
    let fetch ← e.call collection fetch name
    pure (some ⟨⟨name, e.originalFile, collection⟩, r.name, fetch, stages⟩)
  | none => pure none

end Example

/-- The examples of some methods, each with its method, where they become samples. -/
def examplesOf (methods : List Method) : List (Method × String × Example) :=
  (methods.filter (·.hasSamples)).flatMap fun m => m.operation.examples.map fun e => (m, e.1, e.2)

namespace Client

/-- The samples of definitions of a resource. Where creates and updates go by one method, examples
that speak of an update are left to it. -/
def createSamples (client : Client) (r : Resource) : Logged (List CreateSample) := do
  match r.create with
  | none => pure []
  | some create =>
    let shared := client.createsByUpdate r
    let samples ← (examplesOf (client.references create)).mapM fun (m, name, e) =>
      if shared && speaksOfUpdate name then do
        Logged.note (.createExampleSkipped name)
        pure none
      else do
        Logged.note (.createExample name)
        e.create client r m name
    pure (samples.filterMap id)

/-- The method that fetches a resource before an update. -/
def fetchMethod? (client : Client) (r : Resource) : Option Method :=
  r.refresh.bind fun refresh => (client.references refresh).find? (·.hasContext)

/-- The samples of updates of a resource, if it can be fetched. Where creates and updates go by one
method, only examples that speak of an update count. -/
def updateSamples (client : Client) (r : Resource) : Logged (List UpdateSample) := do
  match r.update, client.fetchMethod? r with
  | some update, some fetch =>
    let shared := client.createsByUpdate r
    let samples ← (examplesOf (client.references update)).mapM fun (m, name, e) =>
      if shared && !speaksOfUpdate name then do
        Logged.note (.updateExampleSkipped name)
        pure none
      else do
        Logged.note (.updateExample name)
        e.update client r fetch m name
    pure (samples.filterMap id)
  | _, _ => pure []

/-- The operation under which samples of what is bound go: that of the first method. -/
def operationName (client : Client) (b : Binding) : String :=
  ((client.references b).head?.map (·.operation.name)).getD ""

end Client

/-- Samples of operations by their names. -/
abbrev SampleBook := List OperationSamples

/-- Change the samples of an operation, which are none before the first change. Operations are kept
in the order of their names. -/
def SampleBook.enter (group operation : String) (change : OperationSamples → OperationSamples) :
    SampleBook → SampleBook
  | [] => [change (.none group operation)]
  | s :: rest =>
    let name := (OperationSamples.none group operation).name
    if s.name == name then change s :: rest
    else if name < s.name then change (.none group operation) :: s :: rest
    else s :: enter group operation change rest

namespace Client

/-- The resource at a position with what is bound to it in a phase. -/
def boundResource? (client : Client) (phase : Phase) (i : Nat) : Option (Resource × Binding) :=
  client.resources[i]?.bind fun r => (r.binding? phase).map (r, ·)

/-- The resources of a phase of a collection, each with what is bound to it. -/
def boundResources (client : Client) (c : Collection) (phase : Phase) :
    List (Resource × Binding) :=
  (c.bound phase).filterMap (client.boundResource? phase)

def samples (client : Client) (c : Collection) : Logged SampleBook := do
  let book : SampleBook := []
  let book ← (examplesOf (client.plainMethods c)).foldlM (fun book (m, name, e) => do
    Logged.note (.callExample name)
    let sample ← e.call c.name m name
    pure (book.enter c.name m.operation.name fun s => { s with calls := s.calls ++ [sample] })) book
  let book ← (client.boundResources c .create).foldlM (fun book (r, b) => do
    let samples ← client.createSamples r
    pure <| samples.foldl (fun book sample =>
      book.enter c.name (client.operationName b) fun s =>
        { s with creates := s.creates ++ [sample] }) book) book
  (client.boundResources c .update).foldlM (fun book (r, b) => do
    let samples ← client.updateSamples r
    pure <| samples.foldl (fun book sample =>
      book.enter c.name (client.operationName b) fun s =>
        { s with updates := s.updates ++ [sample] }) book) book

def allSamples (client : Client) : Logged (List OperationSamples) := do
  let books ← client.collections.mapM client.samples
  pure books.flatten

end Client

end Lifecycle
