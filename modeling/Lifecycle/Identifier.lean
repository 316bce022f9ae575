import Lifecycle.Text.Blank
import Lifecycle.Text.Case
import Lifecycle.Text.Search

/-!
# Identifiers of the generated interface

How names of the service description become names in generated code: PascalCase, the singular of a
plural path segment, and the resource name behind a wire schema name.
-/

namespace Lifecycle

open Text

/-- Characters that end a word of an identifier and are dropped. -/
def isWordSeparator (c : Char) : Bool :=
  c == '_' || c == '-' || c == '.' || isBlank c

/-- Words run together; `raise` says that the next character starts a word. -/
def pascalWords (raise : Bool) : List Char → List Char
  | [] => []
  | c :: rest =>
    if isWordSeparator c then pascalWords true rest
    else if raise then upper c ++ pascalWords false rest
    else c :: pascalWords false rest

/-- PascalCase of a name; capitals inside words stay. -/
def pascalCase (name : String) : String :=
  String.ofList (pascalWords true name.toList)

def shorten (n : Nat) (cs : List Char) : List Char :=
  cs.take (cs.length - n)

/-- Singular of an English plural, by its ending alone and in any ASCII case. -/
def singularWord (cs : List Char) : List Char :=
  let small := cs.map Char.toLower
  let ends (tail : String) : Bool := tail.toList.isSuffixOf small
  if ends "ies" && decide (3 < cs.length) then shorten 3 cs ++ ['y']
  else if ["sses", "xes", "ches", "shes"].any ends then shorten 2 cs
  else if ends "s" && !ends "ss" && decide (1 < cs.length) then shorten 1 cs
  else cs

def singular (name : String) : String :=
  String.ofList (singularWord name.toList)

/-- The ending that marks the wire schema of a resource. -/
def innerEnding : String := "Inner"

/-- The resource name of a wire schema: its name without the ending `Inner`, unless that is all
of it. -/
def resourceName (schemaName : String) : String :=
  match dropTail? innerEnding.toList schemaName.toList with
  | some (c :: rest) => String.ofList (c :: rest)
  | _ => schemaName

/-- Whether a name contains a word, given in small letters, in any letter case. -/
def mentions (word name : String) : Bool :=
  occurs word.toList (lowercase name)

/-- Whether a name contains the first word and not the second, in any letter case. -/
def mentionsOnly (word other name : String) : Bool :=
  mentions word name && !mentions other name

/-- Names such as "Update widget tags", which speak of an update and of no creation. -/
def speaksOfUpdate (name : String) : Bool :=
  mentionsOnly "update" "create" name

end Lifecycle
