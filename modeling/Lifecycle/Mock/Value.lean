import Lifecycle.Calendar
import Lifecycle.Identifier
import Lifecycle.Inheritance
import Lifecycle.Random.Generator

/-!
# Made-up values

JSON values of the types of a service, drawn from a generator. Types of which no value can be made
up give `null`, and nothing is ever `null` inside a value. Data under a key that suggests a secret
is refused, lest it be taken for one.
-/

namespace Lifecycle.Mock

open Json

/-- The greatest depth at which optional properties and collections are filled. -/
def optionalDepth : Nat := 5

/-- The greatest depth at which required properties are filled. -/
def requiredDepth : Nat := 2 * optionalDepth

/-- An optional property is left out when the number drawn for it is not above this one. -/
def omission : Float := 0.0

/-- The greatest length of a made-up text. -/
def textLimit : Nat := 16

/-- The greatest number of items of a made-up list or map. -/
def sizeLimit : Nat := 4

/-- Made-up integers lie below this one. -/
def integerLimit : Nat := Nat.pow 2 31 - 1

/-- The day from which made-up moments are counted. -/
def firstDay : Date := ⟨2020, 12, 20⟩

/-- Made-up moments lie within this many seconds. -/
def momentRange : Nat := 356 * secondsPerDay

/-- Made-up durations are shorter than this many seconds. -/
def durationRange : Nat := 10 * secondsPerDay

/-- Words in keys that suggest a secret. -/
def secretWords : List String :=
  ["key", "code", "credential", "password", "token", "secret", "authorization"]

/-- Whether a key suggests that its value is a secret. -/
def suggestsSecret (key : String) : Bool :=
  secretWords.any (mentions · key)

/-- Why no value is made up: a key that suggests a secret. -/
structure Refusal where
  key : String
deriving DecidableEq, Repr

def Refusal.message (r : Refusal) : String :=
  "possible credential in key '" ++ r.key ++ "'"

/-- Write a value at a path into an object, unless a name on the path suggests a secret. -/
def insertChecked (path : List String) (value : Value) (object : Keyed Value) :
    Except Refusal (Keyed Value) :=
  match path.find? suggestsSecret with
  | some key => .error ⟨key⟩
  | none => .ok (insertAt path value object)

/-- What is drawn from a generator, or refused; the generator goes on in both cases. -/
abbrev Draw (γ α : Type) := ExceptT Refusal (StateM γ) α

section

variable {γ : Type} [Generator γ]

/-- Draw a primitive value. -/
def drawn (draw : γ → α × γ) : Draw γ α :=
  ExceptT.lift fun g => draw g

/-- As many results of a draw as given. -/
def repeated : Nat → Draw γ α → Draw γ (List α)
  | 0, _ => pure []
  | n + 1, draw => do
    let a ← draw
    let rest ← repeated n draw
    pure (a :: rest)

def letter : Draw γ Char := do
  let n ← drawn (Generator.below 26)
  pure (Char.ofNat ('a'.toNat + n))

def text : Draw γ String := do
  let n ← drawn (Generator.below textLimit)
  let letters ← repeated (n + 1) letter
  pure (String.ofList letters)

/-- As many items of a list as given, those that are null being left out. -/
def items (item : Draw γ Value) : Nat → Draw γ (List Value)
  | 0 => pure []
  | n + 1 => do
    let v ← item
    let rest ← items item n
    pure (if v.isNull then rest else v :: rest)

/-- As many entries of a map as given, added to those already there. Those whose value is null are
left out. -/
def entries (item : Draw γ Value) : Nat → Keyed Value → Draw γ (Keyed Value)
  | 0, members => pure members
  | n + 1, members => do
    let v ← item
    if v.isNull then entries item n members
    else
      let key ← text
      entries item n (Keyed.put key v members)

/-- A value of a type at a depth; `model` gives the values of schemas by name. -/
def value (model : Nat → String → Draw γ Value) : Nat → ValueType → Draw γ Value
  | _, .string => do pure (.string (← text))
  | _, .integer => do pure (.integer (← drawn (Generator.below integerLimit)))
  | _, .long => do pure (.integer (← drawn Generator.long))
  | _, .float => do pure (.double ((← drawn Generator.unit) * 100.0))
  | _, .double => do pure (.double ((← drawn Generator.unit) * 100.0))
  | _, .boolean => do pure (.bool (← drawn Generator.bool))
  | _, .dateTime => do
    pure (.string (momentText firstDay (← drawn (Generator.below momentRange))))
  | _, .duration => do
    pure (.string (durationText (← drawn (Generator.below durationRange))))
  | _, .uuid => do pure (.string (← drawn Generator.uuid))
  | _, .url => do pure (.string ("http://example.org/" ++ (← text)))
  | _, .object => do pure (.string ("data" ++ (← text)))
  | _, .binary => pure .null
  | _, .enum [] => pure .null
  | _, .enum (first :: rest) => do
    let n ← drawn (Generator.below (rest.length + 1))
    pure (.string ((first :: rest).getD n first))
  | depth, .list item =>
    if depth ≤ optionalDepth then do
      let n ← drawn (Generator.below sizeLimit)
      pure (.array (← items (value model (depth + 1) item) (n + 1)))
    else pure (.array [])
  | depth, .map item =>
    if depth ≤ optionalDepth then do
      let n ← drawn (Generator.below sizeLimit)
      pure (.object (← entries (value model (depth + 1) item) (n + 1) []))
    else pure (.object [])
  | depth, .model name => model (depth + 1) name

/-- Whether a property is left out at a depth. -/
def leavesOut (depth : Nat) (p : Property) : Draw γ Bool :=
  if p.constant then pure true
  else if p.required then pure false
  else if optionalDepth < depth then pure true
  else do
    let chance ← drawn Generator.unit
    pure (decide (chance ≤ omission))

/-- The members of an object with some properties, added to those already there. -/
def members (valueOf : ValueType → Draw γ Value) (depth : Nat) :
    List Property → Keyed Value → Draw γ (Keyed Value)
  | [], object => pure object
  | p :: rest, object => do
    if ← leavesOut depth p then members valueOf depth rest object
    else
      let v ← valueOf p.type
      if v.isNull then members valueOf depth rest object
      else
        let object ← ExceptT.mk (pure (insertChecked p.path v object))
        members valueOf depth rest object

/-- An object of a schema at a depth; `named` gives the values of schemas by name. Below the depth of
required properties there is nothing. -/
def object (schemas : List Schema) (named : Nat → String → Draw γ Value) (depth : Nat)
    (schema : Schema) : Draw γ Value :=
  if requiredDepth < depth then pure .null
  else do
    pure (.object (← members (value named depth) depth (mergedProperties schemas schema) []))

/-- An object of the schema of a name, or nothing if there is none, with so many levels of schemas
in it. -/
def objectWithin (schemas : List Schema) : Nat → Nat → String → Draw γ Value
  | 0, _, _ => pure .null
  | levels + 1, depth, name =>
    match findSchema schemas name with
    | some schema => object schemas (objectWithin schemas levels) depth schema
    | none => pure .null

/-- The levels of schemas that the depth of required properties leaves room for. Each level lies at
least one deeper than the one around it, so that there are no more. -/
def levels : Nat := requiredDepth + 1

/-- An object of the schema of a name at a depth. -/
def valueOfSchemaNamed (schemas : List Schema) (depth : Nat) (name : String) : Draw γ Value :=
  objectWithin schemas levels depth name

/-- An object of a schema at a depth. -/
def valueOfSchema (schemas : List Schema) (depth : Nat) (schema : Schema) : Draw γ Value :=
  object schemas (valueOfSchemaNamed schemas) depth schema

def valueOfType (schemas : List Schema) (depth : Nat) (type : ValueType) : Draw γ Value :=
  value (valueOfSchemaNamed schemas) depth type

end

/-- The object with a provisioning state that has come to its end, if it holds a text as such. -/
def settled (value : Value) : Value :=
  match value with
  | .object members =>
    match members.lookup "properties" with
    | some (.object inner) =>
      match inner.lookup "provisioningState" with
      | some (.string _) =>
        let inner := Keyed.put "provisioningState" (.string "Succeeded") inner
        .object (Keyed.put "properties" (.object inner) members)
      | _ => value
    | _ => value
  | _ => value

end Lifecycle.Mock
