import Lifecycle.Service.Basic
import Lifecycle.Source

/-!
# Reading service descriptions

The records and choices that a service description consists of, readable from every `Source`.
-/

namespace Lifecycle

open Source

variable {σ : Type} {m : Type → Type} [Monad m] [Source σ m]

/-- Variants of a value type: complete ones, and those that go by their content. -/
inductive ValueType.Variant
  | plain (type : ValueType)
  | enum
  | list
  | map
  | model

def ValueType.variants : List (String × ValueType.Variant) := [
  ("string", .plain .string),
  ("integer", .plain .integer),
  ("long", .plain .long),
  ("float", .plain .float),
  ("double", .plain .double),
  ("boolean", .plain .boolean),
  ("dateTime", .plain .dateTime),
  ("duration", .plain .duration),
  ("uuid", .plain .uuid),
  ("url", .plain .url),
  ("object", .plain .object),
  ("binary", .plain .binary),
  ("enum", .enum),
  ("list", .list),
  ("map", .map),
  ("model", .model)]

/-- A value type, with the types nested in it. -/
def ValueType.read (s : σ) : m ValueType := do
  let choice ← choose ValueType.variants s
  let type ← match choice.content with
    | none =>
      match choice.variant with
      | .plain type => pure type
      | _ => bareName σ
    | some ⟨c, _⟩ =>
      match choice.variant with
      | .plain type => do
        unit c
        pure type
      | .enum => ValueType.enum <$> Source.list text c
      | .list => ValueType.list <$> ValueType.read c
      | .map => ValueType.map <$> ValueType.read c
      | .model => ValueType.model <$> text c
  choice.ending
  pure type
termination_by rank s

def Property.fields :
    Fields σ m [String, String, ValueType, Bool, Bool, Bool, Option String] :=
  .required "name" text <|
  .required "serializedName" text <|
  .required "propertyType" ValueType.read <|
  .defaulted "required" flag false <|
  .defaulted "readOnly" flag false <|
  .defaulted "constant" flag false <|
  .defaulted "description" (optional text) none
  .none

def Property.read (s : σ) : m Property := do
  let (name, serializedName, type, required, readOnly, constant, description, ()) ←
    record "ModelProperty" Property.fields s
  pure { name, serializedName, type, required, readOnly, constant, description }

def Schema.fields : Fields σ m [String, Option String, List String, List Property] :=
  .required "name" text <|
  .defaulted "parentModelName" (optional text) none <|
  .defaulted "derivedModels" (list text) [] <|
  .defaulted "properties" (list Property.read) []
  .none

def Schema.read (s : σ) : m Schema := do
  let (name, parent, derived, properties, ()) ← record "ClientModel" Schema.fields s
  pure { name, parent, derived, properties }

def Verb.variants : List (String × Verb) :=
  [Verb.get, .put, .patch, .post, .delete, .head].map fun verb => (verb.display, verb)

def Location.variants : List (String × Location) :=
  [("path", .path), ("query", .query), ("header", .header), ("body", .body)]

def Parameter.fields :
    Fields σ m [String, String, Location, ValueType, Bool, Bool, Bool] :=
  .required "name" text <|
  .required "serializedName" text <|
  .required "location" (plainChoice Location.variants) <|
  .required "parameterType" ValueType.read <|
  .defaulted "required" flag false <|
  .defaulted "constant" flag false <|
  .defaulted "fromClient" flag false
  .none

def Parameter.read (s : σ) : m Parameter := do
  let (name, serializedName, location, type, required, constant, fromClient, ()) ←
    record "Parameter" Parameter.fields s
  pure { name, serializedName, location, type, required, constant, fromClient }

def Paging.fields : Fields σ m [String] :=
  .required "itemName" text .none

def Paging.read (s : σ) : m Paging := do
  let (itemName, ()) ← record "PagingInfo" Paging.fields s
  pure { itemName }

def Example.fields : Fields σ m [Option String, Keyed Json.Value, Keyed Json.Value] :=
  .defaulted "originalFile" (optional text) none <|
  .defaulted "parameters" (map tree) [] <|
  .defaulted "responses" (map tree) []
  .none

def Example.read (s : σ) : m Example := do
  let (originalFile, parameters, responses, ()) ← record "OperationExample" Example.fields s
  pure { originalFile, parameters, responses }

/-- The status codes expected of an operation that names none. -/
def defaultStatusCodes : List UInt16 := [200]

def Operation.fields :
    Fields σ m [String, Verb, String, List Parameter, Option String, Bool, Option Paging,
      Option String, List UInt16, Keyed Example] :=
  .required "name" text <|
  .required "httpMethod" (plainChoice Verb.variants) <|
  .required "urlPath" text <|
  .defaulted "parameters" (list Parameter.read) [] <|
  .defaulted "returnType" (optional text) none <|
  .defaulted "longRunning" flag false <|
  .defaulted "paging" (optional Paging.read) none <|
  .defaulted "requestContentType" (optional text) none <|
  .defaulted "expectedStatusCodes" (list word) defaultStatusCodes <|
  .defaulted "examples" (map Example.read) []
  .none

def Operation.read (s : σ) : m Operation := do
  let (name, verb, url, parameters, returnType, longRunning, paging, requestContentType,
      expectedStatusCodes, examples, ()) ← record "Operation" Operation.fields s
  pure
    { name, verb, url, parameters, returnType, longRunning, paging, requestContentType,
      expectedStatusCodes, examples }

def OperationGroup.fields : Fields σ m [String, List Operation] :=
  .required "name" text <|
  .defaulted "operations" (list Operation.read) []
  .none

def OperationGroup.read (s : σ) : m OperationGroup := do
  let (name, operations, ()) ← record "OperationGroup" OperationGroup.fields s
  pure { name, operations }

def Service.fields : Fields σ m [String, List Schema, List OperationGroup] :=
  .required "name" text <|
  .defaulted "models" (list Schema.read) [] <|
  .defaulted "operationGroups" (list OperationGroup.read) []
  .none

def Service.read (s : σ) : m Service := do
  let (name, schemas, groups, ()) ← record "CodeModel" Service.fields s
  pure { name, schemas, groups }

end Lifecycle
