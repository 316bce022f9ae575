import Lifecycle.Json.Path

/-!
# Service descriptions

What a service offers: the schemas of its objects and, in groups, the REST operations on them.
-/

namespace Lifecycle

/-- The type of a property or a parameter. -/
inductive ValueType
  | string
  | integer
  | long
  | float
  | double
  | boolean
  | dateTime
  | duration
  | uuid
  | url
  /-- untyped JSON -/
  | object
  /-- raw bytes -/
  | binary
  | enum (values : List String)
  | list (item : ValueType)
  | map (value : ValueType)
  /-- the schema of this name -/
  | model (name : String)
deriving DecidableEq, Repr

namespace ValueType

/-- The type as it is written in signatures. -/
def display : ValueType → String
  | .string => "String"
  | .integer => "Integer"
  | .long => "Long"
  | .float => "Float"
  | .double => "Double"
  | .boolean => "Boolean"
  | .dateTime => "OffsetDateTime"
  | .duration => "Duration"
  | .uuid => "UUID"
  | .url => "URL"
  | .object => "Object"
  | .binary => "BinaryData"
  | .enum _ => "String"
  | .list item => "List<" ++ item.display ++ ">"
  | .map value => "Map<String, " ++ value.display ++ ">"
  | .model name => name

/-- The schema that the type refers to directly. -/
def modelName? : ValueType → Option String
  | .model name => some name
  | _ => none

end ValueType

structure Property where
  name : String
  /-- wire name; a flattened property spells a path -/
  serializedName : String
  type : ValueType
  required : Bool
  readOnly : Bool
  constant : Bool
  description : Option String
deriving DecidableEq, Repr

def Property.path (p : Property) : List String :=
  Json.splitPath p.serializedName

structure Schema where
  name : String
  parent : Option String
  /-- names of the schemas that extend this one -/
  derived : List String
  properties : List Property
deriving DecidableEq, Repr

/-- HTTP verbs of operations. -/
inductive Verb
  | get
  | put
  | patch
  | post
  | delete
  | head
deriving DecidableEq, Repr

def Verb.display : Verb → String
  | .get => "GET"
  | .put => "PUT"
  | .patch => "PATCH"
  | .post => "POST"
  | .delete => "DELETE"
  | .head => "HEAD"

/-- Where a parameter is sent. -/
inductive Location
  | path
  | query
  | header
  | body
deriving DecidableEq, Repr

structure Parameter where
  name : String
  /-- path placeholder, query key, header name or body name -/
  serializedName : String
  location : Location
  type : ValueType
  required : Bool
  /-- a fixed value such as `api-version` -/
  constant : Bool
  /-- supplied by the service client, such as `subscriptionId` -/
  fromClient : Bool
deriving DecidableEq, Repr

def Parameter.isBody (p : Parameter) : Bool :=
  p.location == .body

/-- Whether callers of a client method supply the parameter. -/
def Parameter.isCallerSupplied (p : Parameter) : Bool :=
  !p.constant && !p.fromClient

/-- How the pages of a list operation are read. -/
structure Paging where
  /-- the member that holds the items of a page -/
  itemName : String
deriving DecidableEq, Repr

/-- A named example of an operation: parameter values by wire name, responses by status code. -/
structure Example where
  originalFile : Option String
  parameters : Keyed Json.Value
  responses : Keyed Json.Value

structure Operation where
  name : String
  verb : Verb
  /-- URL template with `{parameter}` placeholders -/
  url : String
  parameters : List Parameter
  /-- the schema of the response -/
  returnType : Option String
  longRunning : Bool
  paging : Option Paging
  requestContentType : Option String
  expectedStatusCodes : List UInt16
  examples : Keyed Example

/-- The parameter that is sent as the request body. -/
def Operation.bodyParameter? (op : Operation) : Option Parameter :=
  op.parameters.find? (·.isBody)

/-- Whether callers may leave parameters out. -/
def Operation.hasOptionalParameters (op : Operation) : Bool :=
  op.parameters.any fun p => !p.required && p.isCallerSupplied

/-- Operations that belong to one collection of resources. -/
structure OperationGroup where
  name : String
  operations : List Operation

/-- A service: its name, its schemas and its operations. -/
structure Service where
  name : String
  schemas : List Schema
  groups : List OperationGroup

/-- The first schema of a name. -/
def findSchema (schemas : List Schema) (name : String) : Option Schema :=
  schemas.find? (·.name == name)

end Lifecycle
