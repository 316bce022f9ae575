import Lifecycle.Service.Basic

/-!
# Service descriptions as JSON

The JSON form of a service description and its parts. Members stand in a fixed order; a member
without a value is left out where its absence means the same.
-/

namespace Lifecycle

open Json

/-- A member that is left out when it has no value. -/
def optionalMember (name : String) (encode : α → Value) : Option α → List (String × Value)
  | none => []
  | some a => [(name, encode a)]

def ValueType.toJson : ValueType → Value
  | .string => .string "string"
  | .integer => .string "integer"
  | .long => .string "long"
  | .float => .string "float"
  | .double => .string "double"
  | .boolean => .string "boolean"
  | .dateTime => .string "dateTime"
  | .duration => .string "duration"
  | .uuid => .string "uuid"
  | .url => .string "url"
  | .object => .string "object"
  | .binary => .string "binary"
  | .enum values => .object [("enum", .strings values)]
  | .list item => .object [("list", item.toJson)]
  | .map value => .object [("map", value.toJson)]
  | .model name => .object [("model", .string name)]

def Property.toJson (p : Property) : Value :=
  .object <|
    [("name", .string p.name), ("serializedName", .string p.serializedName),
      ("propertyType", p.type.toJson), ("required", .bool p.required),
      ("readOnly", .bool p.readOnly), ("constant", .bool p.constant)]
    ++ optionalMember "description" .string p.description

def Schema.toJson (s : Schema) : Value :=
  .object <|
    [("name", .string s.name)]
    ++ optionalMember "parentModelName" .string s.parent
    ++ (if s.derived.isEmpty then [] else [("derivedModels", .strings s.derived)])
    ++ [("properties", .array (s.properties.map Property.toJson))]

def Location.toJson : Location → Value
  | .path => .string "path"
  | .query => .string "query"
  | .header => .string "header"
  | .body => .string "body"

def Parameter.toJson (p : Parameter) : Value :=
  .object
    [("name", .string p.name), ("serializedName", .string p.serializedName),
      ("location", p.location.toJson), ("parameterType", p.type.toJson),
      ("required", .bool p.required), ("constant", .bool p.constant),
      ("fromClient", .bool p.fromClient)]

def Paging.toJson (p : Paging) : Value :=
  .object [("itemName", .string p.itemName)]

def Example.toJson (e : Example) : Value :=
  .object <|
    optionalMember "originalFile" .string e.originalFile
    ++ [("parameters", .object e.parameters), ("responses", .object e.responses)]

def Operation.toJson (op : Operation) : Value :=
  .object <|
    [("name", .string op.name), ("httpMethod", .string op.verb.display), ("urlPath", .string op.url),
      ("parameters", .array (op.parameters.map Parameter.toJson))]
    ++ optionalMember "returnType" .string op.returnType
    ++ [("longRunning", .bool op.longRunning)]
    ++ optionalMember "paging" Paging.toJson op.paging
    ++ optionalMember "requestContentType" .string op.requestContentType
    ++ [("expectedStatusCodes", .array (op.expectedStatusCodes.map fun c => .integer c.toNat)),
      ("examples", .object (op.examples.map fun e => (e.1, e.2.toJson)))]

def OperationGroup.toJson (g : OperationGroup) : Value :=
  .object [("name", .string g.name), ("operations", .array (g.operations.map Operation.toJson))]

def Service.toJson (s : Service) : Value :=
  .object
    [("name", .string s.name), ("models", .array (s.schemas.map Schema.toJson)),
      ("operationGroups", .array (s.groups.map OperationGroup.toJson))]

end Lifecycle
