import Lifecycle.Failure
import Lifecycle.File.Path

/-!
# Storage

What reading and writing files means to the rest of the library is `Files`; `Storage` is files and
directories as a value, by their places. A place is the list of names that leads to it from the
working directory, or from the root, which is then the first of the names. Above the working
directory there are directories without end, of which nothing more is known: each is one `..` more.
-/

namespace Lifecycle

/-- Access to files. -/
class Files (m : Type → Type) where
  /-- the text of a file -/
  read : String → m (Except FileFault String)
  /-- make a directory and those around it, unless they exist -/
  makeDirectories : String → m (Except FileFault Unit)
  /-- write a text to a file, in place of what it held -/
  write : String → String → m (Except FileFault Unit)

/-- What stands at a place. -/
inductive Entry
  | directory
  | file (content : ByteArray)

/-- Files and directories by place. -/
structure Storage where
  entries : List (List String × Entry)

namespace Storage

def empty : Storage := ⟨[]⟩

/-- The name of the root in places. -/
def root : String := "/"

/-- The name that leads to the directory around. -/
def up : String := ".."

/-- Whether a place is the working directory or one that it lies in. -/
def isAbove (place : List String) : Bool := place.all (· == up)

/-- The place of the directory around. The root has only itself around it. -/
def around (place : List String) : List String :=
  if place == [root] then place
  else if isAbove place then place ++ [up]
  else place.dropLast

/-- What stands at a place. Root and working directory are always there, and so is what the latter
lies in. -/
def at? (s : Storage) (place : List String) : Option Entry :=
  if isAbove place || place == [root] then some .directory
  else s.entries.lookup place

def put (s : Storage) (place : List String) (entry : Entry) : Storage :=
  ⟨(place, entry) :: s.entries.filter (·.1 != place)⟩

/-- The greatest length of a name in bytes. -/
def nameLimit : Nat := 255

/-- The length in bytes from which on a path is too long. -/
def pathLimit : Nat := 4096

/-- The place that one name leads to from a directory. -/
def stepTo (s : Storage) (place : List String) (name : String) : Except FileFault (List String) :=
  match s.at? place with
  | none => .error .noEntry
  | some (.file _) => .error .notDirectory
  | some .directory =>
    if name.isEmpty || name == "." then .ok place
    else if name == up then .ok (around place)
    else if nameLimit < name.utf8ByteSize then .error .nameTooLong
    else .ok (place ++ [name])

/-- The place that some parts of a path lead to from another place. All but the last have to lead
to directories. -/
def walk (s : Storage) : List String → List String → Except FileFault (List String)
  | place, [] => .ok place
  | place, name :: rest => (s.stepTo place name).bind (s.walk · rest)

/-- The place of a path. -/
def locate (s : Storage) (path : String) : Except FileFault (List String) :=
  if path.toList.contains (Char.ofNat 0) then .error .nullInName
  else if path.isEmpty then .error .noEntry
  else if pathLimit ≤ path.utf8ByteSize then .error .nameTooLong
  else s.walk (if Path.isAbsolute path then [root] else []) (Path.parts path)

def read (s : Storage) (path : String) : Except FileFault String := do
  match s.at? (← s.locate path) with
  | none => throw .noEntry
  | some .directory => throw .isDirectory
  | some (.file content) =>
    match String.fromUTF8? content with
    | some text => pure text
    | none => throw .notText

def write (s : Storage) (path text : String) : Except FileFault Storage := do
  let place ← s.locate path
  match s.at? place with
  | some .directory => throw .isDirectory
  | _ => pure (s.put place (.file text.toUTF8))

def isDirectory (s : Storage) (path : String) : Bool :=
  match s.locate path with
  | .ok place =>
    match s.at? place with
    | some .directory => true
    | _ => false
  | .error _ => false

def trimSlashes (path : String) : String :=
  let reversed := path.toList.reverse
  match reversed.dropWhile (· == '/') with
  | [] => if reversed.isEmpty then "" else root
  | rest => String.ofList rest.reverse

def makeDirectory (s : Storage) (path : String) : Except FileFault Storage := do
  let place ← s.locate (trimSlashes path)
  match s.at? place with
  | some _ => throw .exists
  | none => pure (s.put place .directory)

/-- Make a directory; a directory that is there already will do. -/
def provide (s : Storage) (path : String) : Except FileFault Storage :=
  match s.makeDirectory path with
  | .ok s => .ok s
  | .error fault => if s.isDirectory path then .ok s else .error fault

/-- Make a directory and so many of those around it as are missing. -/
def provideAll : Nat → Storage → String → Except FileFault Storage
  | 0, s, path => s.provide path
  | depth + 1, s, path =>
    if path.isEmpty then .ok s
    else
      match s.provide path with
      | .error .noEntry =>
        match Path.parent? path with
        | some parent => (provideAll depth s parent).bind (·.provide path)
        | none => .error .noEntry
      | outcome => outcome

def makeDirectories (s : Storage) (path : String) : Except FileFault Storage :=
  provideAll ((Path.names path).length + 1) s path

/-- Whether names lead out of the directory that they are followed from. -/
def startsOutside (names : List String) : Bool :=
  match names with
  | name :: _ => name == up || name == root
  | [] => false

/-- Whether a place lies below another one. -/
def isBelow (place other : List String) : Bool :=
  place.isPrefixOf other && !(other.drop place.length).isEmpty
    && !startsOutside (other.drop place.length)

/-- An entry that is a file below a place, by its path from there. -/
def fileBelow? (place : List String) (e : List String × Entry) : Option (String × ByteArray) :=
  match e.2 with
  | .file content =>
    if isBelow place e.1 then
      some (String.intercalate "/" (e.1.drop place.length), content)
    else none
  | .directory => none

/-- The files under a directory: their paths from there, and what they hold. -/
def filesUnder (s : Storage) (path : String) : List (String × ByteArray) :=
  match s.locate path with
  | .error _ => []
  | .ok place => s.entries.filterMap (fileBelow? place)

end Storage

/-- A change of the storage, which is left as it is by a failure. -/
def changeStorage (change : Storage → Except FileFault Storage) :
    StateM Storage (Except FileFault Unit) := do
  match change (← get) with
  | .ok s =>
    set s
    pure (.ok ())
  | .error fault => pure (.error fault)

instance : Files (StateM Storage) where
  read path := do pure ((← get).read path)
  makeDirectories path := changeStorage (·.makeDirectories path)
  write path text := changeStorage (·.write path text)

end Lifecycle
