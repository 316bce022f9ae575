import Lifecycle.Service.Basic

/-!
# Inherited properties

A schema may name another one as its parent. `ancestors` follows the parents, nearest first, and
`mergedProperties` gives all properties of a schema: of several declarations of one name the nearest
counts, and those of the furthest schema come first.
-/

namespace Lifecycle

/-- The ancestors from a parent's name on, at most as many as given. -/
def ancestorsFrom (schemas : List Schema) : Nat → Option String → List Schema
  | 0, _ => []
  | _, none => []
  | fuel + 1, some name =>
    match findSchema schemas name with
    | none => []
    | some parent => parent :: ancestorsFrom schemas fuel parent.parent

/-- The ancestors of a schema, nearest first. Parents that go round in a circle are followed until
there are more of them than schemas. -/
def ancestors (schemas : List Schema) (schema : Schema) : List Schema :=
  ancestorsFrom schemas (schemas.length + 1) schema.parent

/-- The properties whose names have not been met, the first of each name. -/
def unmetProperties (met : List String) : List Property → List Property
  | [] => []
  | p :: rest =>
    if met.contains p.name then unmetProperties met rest
    else p :: unmetProperties (p.name :: met) rest

/-- The properties of some schemas, nearest first, in order of the furthest first. Names that have
been met are hidden. -/
def layeredProperties (met : List String) : List Schema → List Property
  | [] => []
  | schema :: further =>
    let own := unmetProperties met schema.properties
    layeredProperties (own.map (·.name) ++ met) further ++ own

/-- The properties of a schema together with those of its ancestors. -/
def mergedProperties (schemas : List Schema) (schema : Schema) : List Property :=
  layeredProperties [] (schema :: ancestors schemas schema)

end Lifecycle
