import Lifecycle.Json.Basic

/-!
# Paths into nested objects

A flattened wire name such as `properties.provisioningState` spells a path, a dot between its
levels; a dot that belongs to a name is written `\.`. `lookup` reads the value at a path and
`insertAt` writes one there.
-/

namespace Lifecycle.Json

/-- Put a character in front of the first of some names. -/
def growFirst (c : Char) : List (List Char) → List (List Char)
  | [] => [[c]]
  | name :: rest => (c :: name) :: rest

/-- The names that a flattened name spells. A backslash escapes only a dot directly after it. -/
def splitChars : List Char → List (List Char)
  | [] => [[]]
  | '\\' :: '.' :: rest => growFirst '.' (splitChars rest)
  | '.' :: rest => [] :: splitChars rest
  | c :: rest => growFirst c (splitChars rest)

/-- The path that a flattened wire name spells. -/
def splitPath (flattened : String) : List String :=
  (splitChars flattened.toList).map String.ofList

/-- A name as one level of a flattened name. -/
def escapeDots : List Char → List Char
  | [] => []
  | '.' :: rest => '\\' :: '.' :: escapeDots rest
  | c :: rest => c :: escapeDots rest

/-- The flattened name that spells a path. -/
def joinChars : List (List Char) → List Char
  | [] => []
  | [name] => escapeDots name
  | name :: rest => escapeDots name ++ '.' :: joinChars rest

/-- The flattened wire name that spells a path. -/
def joinPath (path : List String) : String :=
  String.ofList (joinChars (path.map String.toList))

def Value.at? : List String → Value → Option Value
  | [], v => some v
  | key :: path, v =>
    match v.member? key with
    | some inner => inner.at? path
    | none => none

/-- Write a value at a path. Objects on the way are made as needed; where the way leads through
another value, that value stays and nothing is written. -/
def insertAt : List String → Value → Keyed Value → Keyed Value
  | [], _, members => members
  | [key], value, members => Keyed.put key value members
  | key :: next :: path, value, members =>
    match members.lookup key with
    | none => Keyed.put key (.object (insertAt (next :: path) value [])) members
    | some (.object inner) => Keyed.put key (.object (insertAt (next :: path) value inner)) members
    | some _ => members

end Lifecycle.Json
