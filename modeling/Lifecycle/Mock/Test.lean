import Lifecycle.Mock.Value
import Lifecycle.Sample

/-!
# Mock tests

A mock test calls the client with made-up arguments and answers the call with a made-up response.
A test whose data would be refused is left out with a notice; the generator goes on from there.
-/

namespace Lifecycle.Mock

open Json

/-- The response that a test answers its call with. -/
structure Response where
  status : UInt16
  body : Value

inductive TestCall
  | call (sample : CallSample)
  | create (sample : CreateSample)

structure Test where
  name : String
  collection : String
  method : String
  call : TestCall
  response : Response
  /-- the expression that is checked after the call -/
  verified : String

/-- Whether a method is one to test: synchronous and with a context. A long-running one has to
expect success at once and must not be a GET. -/
def isTested (m : Method) : Bool :=
  m.hasContext &&
    match m.kind with
    | .simple => true
    | .simpleResponse => true
    | .paging => true
    | .longRunning => m.operation.expectedStatusCodes.contains 200 && m.verb != .get
    | _ => false

/-- Whether a method is tested and sends JSON. -/
def isTestable (m : Method) : Bool :=
  m.sendsJson && isTested m

def testName (collection method : String) : String :=
  pascalCase collection ++ pascalCase method ++ "MockTests"

/-- The status of a response to a method: the first that is expected. -/
def statusOf (m : Method) : UInt16 :=
  m.operation.expectedStatusCodes.headD 200

section

variable {γ : Type} [Generator γ]

/-- Made-up values of some parameters, by wire name, after those already there. -/
def arguments (schemas : List Schema) : List Parameter → Keyed Value → Draw γ (Keyed Value)
  | [], values => pure values
  | p :: rest, values => do
    let v ← valueOfType schemas 0 p.type
    arguments schemas rest (Keyed.put p.serializedName v values)

/-- A made-up example of a method's operation. -/
def request (schemas : List Schema) (m : Method) : Draw γ Example := do
  let parameters ← arguments schemas m.parameters []
  pure ⟨none, parameters, []⟩

/-- The key of the items of a page, which the operation may name. -/
def itemKey (m : Method) : String :=
  (m.operation.paging.map (·.itemName)).getD "value"

def page (m : Method) (item : Value) : Value :=
  .object [(itemKey m, .array [item])]

/-- A body that is there: an empty object instead of nothing. -/
def solid (body : Value) : Value :=
  if body.isNull then .object [] else body

/-- A made-up response to a method, and the expression that is checked. -/
def response (schemas : List Schema) (m : Method) : Draw γ (Response × String) := do
  match m.returns with
  | .paged item =>
    let first ← valueOfSchemaNamed schemas 1 item
    pure (⟨statusOf m, page m first⟩, "response.iterator().next()")
  | returns =>
    let body ←
      match returns.schema? with
      | some name => valueOfSchemaNamed schemas 1 name
      | none => pure .null
    let body := solid body
    pure (⟨statusOf m, if m.kind == .longRunning then settled body else body⟩, "response")

end

/-- What is tested: a plain method, or the create of a resource through a method. -/
inductive Subject
  | method (m : Method)
  | create (r : Resource) (m : Method)

def Subject.tested : Subject → Method
  | .method m => m
  | .create _ m => m

/-- The notice for a subject whose data is refused. -/
def Subject.skipped (refusal : Refusal) : Subject → Notice
  | .method m => .methodTestSkipped m.name refusal.key
  | .create r _ => .resourceTestSkipped r.schema.name refusal.key

/-- The subjects of a collection: its testable plain methods, and the creates of its resources by
their first testable method. -/
def subjects (client : Client) (c : Collection) : List Subject :=
  ((client.plainMethods c).filter isTestable).map .method
    ++ (client.boundResources c .create).filterMap fun (r, b) =>
      ((client.references b).find? isTestable).map (.create r)

def Subject.call (client : Client) (c : Collection) (request : Example) :
    Subject → Logged (Option TestCall)
  | .method m => do pure (some (.call (← request.call c.name m m.name)))
  | .create r m => do pure ((← request.create client r m m.name).map .create)

/-- The test of a subject, and the generator after it. -/
def test {γ : Type} [Generator γ] (client : Client) (c : Collection) (g : γ) (subject : Subject) :
    Logged (Option Test × γ) := do
  let m := subject.tested
  match (request client.schemas m).run g with
  | (.error refusal, g) =>
    Logged.note (subject.skipped refusal)
    pure (none, g)
  | (.ok request, g) =>
    match ← subject.call client c request with
    | none => pure (none, g)
    | some call =>
      match (response client.schemas m).run g with
      | (.error refusal, g) =>
        Logged.note (subject.skipped refusal)
        pure (none, g)
      | (.ok (response, verified), g) =>
        pure (some ⟨testName c.name m.name, c.name, m.name, call, response, verified⟩, g)

/-- The tests of some subjects in order, and the generator after them. -/
def testsOf {γ : Type} [Generator γ] (client : Client) (c : Collection) :
    γ → List Subject → Logged (List Test × γ)
  | g, [] => pure ([], g)
  | g, subject :: rest => do
    let (first, g) ← test client c g subject
    let (tests, g) ← testsOf client c g rest
    pure (first.toList ++ tests, g)

/-- The tests of some collections in order, and the generator after them. -/
def testsOfAll {γ : Type} [Generator γ] (client : Client) :
    γ → List Collection → Logged (List Test × γ)
  | g, [] => pure ([], g)
  | g, c :: rest => do
    let (tests, g) ← testsOf client c g (subjects client c)
    let (more, g) ← testsOfAll client g rest
    pure (tests ++ more, g)

def tests {γ : Type} [Generator γ] (client : Client) (g : γ) : Logged (List Test) := do
  let (tests, _) ← testsOfAll client g client.collections
  pure tests

end Lifecycle.Mock
