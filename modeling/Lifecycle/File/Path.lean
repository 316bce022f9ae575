import Lifecycle.Text.Case
import Lifecycle.Text.Search

/-!
# Paths of files

A path is a text of names with slashes between them. It starts at the root if it begins with a slash
and at the working directory otherwise.
-/

namespace Lifecycle.Path

open Text

def isAbsolute (path : String) : Bool :=
  path.toList.head? == some '/'

/-- All pieces between slashes, the empty ones included. -/
def parts (path : String) : List String :=
  (pieces '/' path.toList).map String.ofList

/-- The pieces that name something: neither empty nor a lone dot. -/
def names (path : String) : List String :=
  (parts path).filter fun name => !name.isEmpty && name != "."

/-- A path under a directory. An absolute path stays what it is. -/
def join (directory path : String) : String :=
  if isAbsolute path then path
  else
    match directory.toList.getLast? with
    | none => path
    | some '/' => directory ++ path
    | some _ => directory ++ "/" ++ path

/-- The path of the directory around the last name, unless there is no name. -/
def parent? (path : String) : Option String :=
  match names path with
  | [] => none
  | names =>
    some ((if isAbsolute path then "/" else "") ++ String.intercalate "/" names.dropLast)

/-- What follows the last dot in the last name, if something comes before the dot. -/
def extension? (path : String) : Option String := do
  let name ← (names path).getLast?
  guard (name != "..")
  let reversed := name.toList.reverse
  let ending := reversed.takeWhile (· != '.')
  guard (decide (ending.length + 1 < reversed.length))
  pure (String.ofList ending.reverse)

/-- Whether a path has one of some extensions, in any case of ASCII letters. -/
def hasExtension (extensions : List String) (path : String) : Bool :=
  match extension? path with
  | some own => extensions.any (equalIgnoringCase · own)
  | none => false

end Lifecycle.Path
