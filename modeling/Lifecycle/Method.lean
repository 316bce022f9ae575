import Lifecycle.Identifier
import Lifecycle.Service.Basic
import Lifecycle.Url

/-!
# Client methods

Each operation of a service becomes several methods of the generated client: with and without
optional parameters, with a context, with the whole response, or starting a long-running operation.
The synchronous ones make up the interface of a resource collection.
-/

namespace Lifecycle

/-- How a method invokes its operation. -/
inductive MethodKind
  | simpleAsync
  | simple
  /-- gives the whole HTTP response -/
  | simpleResponse
  | longRunningBegin
  | longRunning
  | paging
deriving DecidableEq, Repr

/-- The synchronous kinds. -/
def MethodKind.inCollection : MethodKind → Bool
  | .simpleAsync => false
  | .longRunningBegin => false
  | _ => true

/-- What a method gives back, by the name of the schema in it. -/
inductive Returns
  | void
  | value (schema : String)
  | response (schema : Option String)
  | paged (schema : String)
  | poller (schema : Option String)
  | async (schema : Option String)
deriving DecidableEq, Repr

namespace Returns

/-- A plain value of a schema, or nothing. -/
def plain : Option String → Returns
  | none => .void
  | some schema => .value schema

/-- The schema, if the value is given back plainly. -/
def value? : Returns → Option String
  | .value schema => some schema
  | _ => none

/-- The schema, whatever it is wrapped in. -/
def schema? : Returns → Option String
  | .void => none
  | .value schema => some schema
  | .paged schema => some schema
  | .response schema => schema
  | .poller schema => schema
  | .async schema => schema

end Returns

/-- A method of the generated client. -/
structure Method where
  name : String
  kind : MethodKind
  /-- takes a context as its last argument -/
  hasContext : Bool
  /-- leaves out optional parameters -/
  requiredOnly : Bool
  returns : Returns
  operation : Operation

namespace Method

def verb (m : Method) : Verb := m.operation.verb

def url (m : Method) : Url := ⟨m.operation.url⟩

/-- The parameters of the signature, apart from the context. -/
def parameters (m : Method) : List Parameter :=
  m.operation.parameters.filter fun p => p.isCallerSupplied && (!m.requiredOnly || p.required)

def parametersAt (m : Method) (location : Location) : List Parameter :=
  m.parameters.filter (·.location == location)

def sendsModel (m : Method) : Bool :=
  m.operation.parameters.any fun p => p.isBody && p.type.modelName?.isSome

/-- Whether the operation sends JSON, or does not say what it sends. -/
def sendsJson (m : Method) : Bool :=
  match m.operation.requestContentType with
  | none => true
  | some type => Text.occurs "json".toList type.toList

end Method

/-- What the name of a method with the whole response ends in. -/
def responseEnding : String := "WithResponse"

def Operation.methods (op : Operation) : List Method :=
  let optional := op.hasOptionalParameters
  let value := Returns.plain op.returnType
  if op.paging.isSome then
    let page := Returns.paged (op.returnType.getD "")
    [⟨op.name, .paging, false, optional, page, op⟩,
      ⟨op.name, .paging, true, false, page, op⟩]
  else if op.longRunning then
    let begin := "begin" ++ pascalCase op.name
    [⟨begin, .longRunningBegin, false, optional, .poller op.returnType, op⟩,
      ⟨begin, .longRunningBegin, true, false, .poller op.returnType, op⟩,
      ⟨op.name, .longRunning, false, optional, value, op⟩,
      ⟨op.name, .longRunning, true, false, value, op⟩]
  else
    [⟨op.name ++ "Async", .simpleAsync, false, false, .async op.returnType, op⟩,
      ⟨op.name ++ responseEnding, .simpleResponse, true, false, .response op.returnType, op⟩,
      ⟨op.name, .simple, false, optional, value, op⟩]

/-- The methods of an operation that belong to a resource collection. -/
def Operation.collectionMethods (op : Operation) : List Method :=
  op.methods.filter (·.kind.inCollection)

end Lifecycle
