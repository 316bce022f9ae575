import Lifecycle.Source
import Lifecycle.Yaml.Node
import Lifecycle.Yaml.Plain

/-!
# Taking data from nodes

`Site`, a node at its place, as a source of structured data. Typed data goes by the text of a
scalar, untyped data by what a plain scalar stands for. A choice with content is a node with a
local tag, for instance `!list string`. An absent node stands for an empty collection.

Aliases are followed where data is taken, and only so often in one document. Together with the
limit on nested collections this ends the taking of a node that refers to itself.
-/

namespace Lifecycle.Yaml

open Json

/-- Data taken while aliases may be followed so many times more. -/
abbrev Take := StateT Nat (Except Fault)

/-- A node at its place in a document. -/
structure Site where
  node : Node
  /-- the nodes that aliases stand for -/
  anchored : Anchored
  /-- how many collections inside each other may still be entered -/
  room : Nat
  /-- the tag has been taken for the name of a variant, and the rest is its content -/
  named : Bool

/-! ### Tags -/

def isLocal (tag : Tag) : Bool :=
  match tag with
  | mark :: _ => mark == '!'.toUInt8
  | [] => false

/-- The name in a local tag, which is what follows the exclamation mark, or the mark itself if
nothing does. What is no text is no name. -/
def localName? (tag : Tag) : Option String :=
  if isLocal tag then
    String.fromUTF8? ⟨(if tag.length ≤ 1 then tag else tag.tail).toArray⟩
  else none

def nullTag : Tag := bytesOf "tag:yaml.org,2002:null".toList
def booleanTag : Tag := bytesOf "tag:yaml.org,2002:bool".toList
def integerTag : Tag := bytesOf "tag:yaml.org,2002:int".toList
def floatTag : Tag := bytesOf "tag:yaml.org,2002:float".toList

def Node.tag? : Node → Option Tag
  | .scalar tag _ _ => tag
  | .sequence tag _ => tag
  | .mapping tag _ => tag
  | _ => none

/-- Whether a node stands for a collection without anything in it. -/
def Node.isBlank : Node → Bool
  | .void => true
  | .scalar _ .plain "" => true
  | _ => false

/-! ### Scalars -/

/-- The value of a scalar with a tag. A local tag without a name leaves a plain scalar what it is,
and tags of no scalar type make it a text. -/
def taggedValue? (tag : Tag) (style : Style) (text : String) : Option Value :=
  if (localName? tag).isSome then none
  else if tag == booleanTag then (boolean? text).map .bool
  else if tag == integerTag then
    match whole text with
    | .fits n => some (.integer n)
    | _ => none
  else if tag == floatTag then (float? text).map Value.double
  else if tag == nullTag then if isNullWord text then some .null else none
  else if isLocal tag && style == .plain then plainValue? text
  else some (.string text)

/-- The value that a scalar stands for, if it stands for one. -/
def scalarValue? (tag : Option Tag) (style : Style) (text : String) : Option Value :=
  match tag with
  | some tag => taggedValue? tag style text
  | none => if style == .plain then plainValue? text else some (.string text)

namespace Site

/-- The greatest number of collections inside each other. -/
def depthLimit : Nat := 128

/-- The place of a whole document. -/
def root (document : Document) : Site := ⟨document.root, document.anchored, depthLimit, false⟩

/-- A node that lies in the collection of a site. -/
def inside (s : Site) (node : Node) : Site := { s with node, named := false }

/-- The node that counts: that of the alias if there is one, which uses up one of the times that
aliases may be followed. -/
def follow (s : Site) : Take Site := do
  match s.node with
  | .alias anchor =>
    match (← get), s.anchored.lookup anchor with
    | 0, _ => throw .tooManyAliases
    | _, none => throw .unknownAlias
    | left + 1, some node =>
      set left
      pure (s.inside node)
  | _ => pure s

/-- The tag of a node, unless it has been taken for a name. -/
def tag? (s : Site) : Option Tag :=
  if s.named then none else s.node.tag?

/-- A site in a collection, if one more may be entered. -/
def enter (s : Site) : Take Site :=
  match s.room with
  | 0 => throw .tooDeep
  | room + 1 => pure { s with room }

def text (s : Site) : Take String := do
  match (← s.follow).node with
  | .scalar _ _ text => pure text
  | _ => throw (.mismatch "a string")

/-- The text of a scalar that may be read as something else: it is plain, or a literal block with
the tag of what it is read as. -/
def word? (tag : Tag) (s : Site) : Option String :=
  match s.node with
  | .scalar _ .plain text => some text
  | .scalar _ .literal text => if s.tag? == some tag then some text else none
  | _ => none

def flag (s : Site) : Take Bool := do
  match ((← s.follow).word? booleanTag).bind boolean? with
  | some b => pure b
  | none => throw (.mismatch "a boolean")

def word (s : Site) : Take UInt16 := do
  match ((← s.follow).word? integerTag).bind fun text => unsigned? text.toList with
  | some n => if n < Nat.pow 2 16 then pure (UInt16.ofNat n) else throw (.outOfRange "u16")
  | none => throw (.mismatch "u16")

def unit (s : Site) : Take Unit := do
  let s ← s.follow
  let absent := match s.node, s.tag? with
    | .void, _ => true
    | .scalar _ .plain text, none => isNullLike text
    | .scalar _ .plain text, some tag => tag == nullTag && isNullWord text
    | _, _ => false
  if absent then pure () else throw (.mismatch "null")

/-- The site itself, unless it stands for no value. -/
def present (s : Site) : Take (Option Site) := do
  let s ← s.follow
  match s.node, s.tag? with
  | .void, _ => pure none
  | .scalar _ .plain text, none => pure (if isNullLike text then none else some s)
  | .scalar _ .plain text, some tag =>
    if tag != nullTag then pure (some s)
    else if isNullWord text then pure none
    else throw (.mismatch "null")
  | _, _ => pure (some s)

/-! ### Collections -/

def items (s : Site) : Take (List Site) := do
  let s ← s.follow
  match s.node with
  | .sequence _ items =>
    let s ← s.enter
    pure (items.map s.inside)
  | node => if node.isBlank then pure [] else throw (.mismatch "a sequence")

/-- The entries of a map or a record. -/
def entries (s : Site) : Take (List (Site × Site)) := do
  let s ← s.follow
  match s.node with
  | .mapping _ entries =>
    let s ← s.enter
    pure (entries.map fun e => (s.inside e.1, s.inside e.2))
  | node => if node.isBlank then pure [] else throw (.mismatch "a map")

/-- Read the values of entries alike. A key that comes again replaces the value of the first. -/
def keyed (read : Site → Take α) (entries : List (Site × Site)) : Take (Keyed α) :=
  entries.foldlM (fun known e => do
    let name ← e.1.text
    let a ← read e.2
    pure (Keyed.put name a known)) []

def list (read : Site → Take α) (s : Site) : Take (List α) := do
  (← s.items).mapM read

def map (read : Site → Take α) (s : Site) : Take (Keyed α) := do
  keyed read (← s.entries)

/-- The value of a node in which so many collections may be entered. A local tag with a name is no
part of a value. -/
def valueWithin : Nat → Site → Take Value
  | room, s => do
    let s ← s.follow
    if (s.tag?.bind localName?).isSome then throw (.mismatch "any value")
    match s.node, room with
    | .void, _ => pure .null
    | .scalar _ style text, _ =>
      match scalarValue? s.tag? style text with
      | some v => pure v
      | none => throw (.mismatch "any value")
    | .sequence _ items, room + 1 =>
      Value.array <$> items.mapM fun item => valueWithin room (s.inside item)
    | .mapping _ entries, room + 1 =>
      Value.object <$> entries.foldlM (fun known e => do
        let name ← (s.inside e.1).text
        let v ← valueWithin room (s.inside e.2)
        pure (Keyed.put name v known)) []
    | _, _ => throw .tooDeep

def tree (s : Site) : Take Value := valueWithin s.room s

/-! ### Records and choices -/

/-- The fields of a record. Names of no field are passed over with their values. -/
def row {αs : List Type} (fields : Fields Site Take αs) :
    List (Site × Site) → Slots αs → Take (Row αs)
  | [], slots => liftM ((fields.finish slots).mapError Fault.missingField)
  | (key, value) :: rest, slots => do
    let name ← key.text
    match ← fields.offer name value slots with
    | .unknown => row fields rest slots
    | .repeated => throw (.duplicateField name)
    | .stored slots => row fields rest slots

def record {αs : List Type} (fields : Fields Site Take αs) (s : Site) : Take (Row αs) := do
  row fields (← s.entries) fields.unmet

/-- Content is all that can be nested in a choice, and there is no choice with content in it. -/
def rank (s : Site) : Nat := if s.named then 0 else 1

def variantNamed (variants : List (String × α)) (name : String) : Take α :=
  match variants.lookup name with
  | some a => pure a
  | none => throw (.unknownName name)

/-- A variant is written as its name, or as a local tag on its content. Other tags do not count. -/
def choose (variants : List (String × α)) (s : Site) : Take (Choice Take rank s α) :=
  match h : s.named with
  | true => bare s
  | false => do
    let t ← s.follow
    match t.tag?.bind localName? with
    | some name =>
      let variant ← variantNamed variants name
      have : rank { t with named := true } < rank s := by simp [rank, h]
      pure ⟨variant, some ⟨{ t with named := true }, this⟩, pure ()⟩
    | none => bare t
where
  /-- A variant without content. -/
  bare (t : Site) : Take (Choice Take rank s α) := do
    match t.node with
    | .scalar _ _ text => pure ⟨← variantNamed variants text, none, pure ()⟩
    | _ => throw (.mismatch "a tag that starts with an exclamation mark")

end Site

instance : Source Site Take where
  rank := Site.rank
  text := Site.text
  flag := Site.flag
  word := Site.word
  unit := Site.unit
  tree := Site.tree
  present := Site.present
  list := Site.list
  map := Site.map
  record _ := Site.record
  choose := Site.choose
  bareName := throw (.mismatch "content")

/-- How often aliases may be followed for each step in which the document is written. -/
def followLimit : Nat := 100

def ofText (decode : Site → Take α) (text : String) : Except Fault α := do
  let document ← Document.ofText text
  (decode (Site.root document)).run' (followLimit * document.root.events)

end Lifecycle.Yaml
