import Lifecycle.Source

/-!
# Settings of a run

Which artifacts are written, and which resources are tried against which collection before all
others.
-/

namespace Lifecycle

open Json Source

/-- Forces a resource to be classified against a collection first; without a collection it has no
effect. -/
structure Association where
  resource : String
  collection : Option String
deriving DecidableEq, Repr

structure Settings where
  associations : List Association
  generateSamples : Bool
  generateTests : Bool
  /-- resources are only classified in this mode -/
  fluentLite : Bool
deriving DecidableEq, Repr

/-- The settings of a run that says nothing about them. -/
def Settings.standard : Settings := ⟨[], false, false, true⟩

def Association.toJson (a : Association) : Value :=
  .object
    [("resource", .string a.resource), ("collection", Value.optional .string a.collection)]

def Settings.toJson (s : Settings) : Value :=
  .object
    [("resource-collection-associations", .array (s.associations.map Association.toJson)),
      ("generate-samples", .bool s.generateSamples), ("generate-tests", .bool s.generateTests),
      ("fluent-lite", .bool s.fluentLite)]

variable {σ : Type} {m : Type → Type} [Monad m] [Source σ m]

def Association.fields : Fields σ m [String, Option String] :=
  .required "resource" text <|
  .defaulted "collection" (optional text) none
  .none

def Association.read (s : σ) : m Association := do
  let (resource, collection, ()) ← record "ResourceCollectionAssociation" Association.fields s
  pure { resource, collection }

def Settings.fields : Fields σ m [List Association, Bool, Bool, Bool] :=
  .defaulted "resource-collection-associations" (list Association.read) [] <|
  .defaulted "generate-samples" flag false <|
  .defaulted "generate-tests" flag false <|
  .defaulted "fluent-lite" flag true
  .none

def Settings.read (s : σ) : m Settings := do
  let (associations, generateSamples, generateTests, fluentLite, ()) ←
    record "FluentSettings" Settings.fields s
  pure { associations, generateSamples, generateTests, fluentLite }

end Lifecycle
