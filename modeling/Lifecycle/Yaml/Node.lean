import Lifecycle.Yaml.Token

/-!
# Nodes of a YAML document

A text holds one document, and a document is one node. Nodes are composed from tokens. What an
alias stands for is only known when the whole document is there, so an alias stays in the tree with
the number of its anchor, and the document keeps the nodes that have anchors. Whether a scalar
stands for a number or a text is not decided here.
-/

namespace Lifecycle.Yaml

inductive Node
  /-- the text holds no document -/
  | void
  | scalar (tag : Option Tag) (style : Style) (text : String)
  | sequence (tag : Option Tag) (items : List Node)
  | mapping (tag : Option Tag) (entries : List (Node × Node))
  /-- an alias of the node with an anchor of this number -/
  | alias (anchor : Nat)

instance : Inhabited Node := ⟨.void⟩

/-- What stands where a node is left out. -/
def Node.empty : Node := .scalar none .plain ""

mutual

/-- The number of steps in which a node is written: a collection has a start and an end. -/
def Node.events : Node → Nat
  | .sequence _ items => itemEvents items + 2
  | .mapping _ entries => entryEvents entries + 2
  | _ => 1

def itemEvents : List Node → Nat
  | [] => 0
  | item :: rest => item.events + itemEvents rest

def entryEvents : List (Node × Node) → Nat
  | [] => 0
  | (key, value) :: rest => key.events + value.events + entryEvents rest

end

/-- Nodes with anchors by the numbers of their anchors, the latest in the text first. Where two
have one number, the later one is meant, also by an alias between them. -/
abbrev Anchored := List (Nat × Node)

structure Document where
  root : Node
  anchored : Anchored

/-- A document in composition: the tokens that are left, the tag handles of the document, the
numbers of the anchors met so far by name, and the nodes that have them. -/
structure Composition where
  tokens : List Token
  handles : List (List Char × Tag)
  names : List (List Char × Nat)
  anchored : Anchored

/-- A step of the composition. -/
abbrev Compose := StateT Composition (Except Fault)

namespace Compose

/-- The next token; past the end of the stream there is only its end. -/
def peek : Compose Token := do
  pure ((← get).tokens.headD .streamEnd)

def skip : Compose Unit :=
  modify fun c => { c with tokens := c.tokens.tail }

def follows (tokens : List Token) : Compose Bool := do
  pure (tokens.contains (← peek))

/-- Drop the next token if it is the given one, and say whether it was. -/
def accept (token : Token) : Compose Bool := do
  if (← peek) == token then
    skip
    pure true
  else pure false

/-- The node of an alias, which has to come after an anchor of its name. -/
def aliased (name : List Char) : Compose Node := do
  match (← get).names.lookup name with
  | none => throw .unknownAlias
  | some anchor => pure (.alias anchor)

/-- The full tag that a handle and a suffix spell. -/
def fullTag (handle : List Char) (suffix : Tag) : Compose Tag := do
  if handle.isEmpty then pure suffix
  else
    match (← get).handles.lookup handle with
    | some start => pure (start ++ suffix)
    | none => throw .unknownTagHandle

def anchor? : Compose (Option (List Char)) := do
  match ← peek with
  | .anchor name =>
    skip
    pure (some name)
  | _ => pure none

def tag? : Compose (Option (List Char × Tag)) := do
  match ← peek with
  | .tag handle suffix =>
    skip
    pure (some (handle, suffix))
  | _ => pure none

/-- What stands in front of a node: an anchor and a tag, in either order. -/
def properties : Compose (Option (List Char) × Option Tag) := do
  let first ← anchor?
  let tag ← tag?
  let anchor ← if first.isNone && tag.isSome then anchor? else pure first
  match tag with
  | none => pure (anchor, none)
  | some (handle, suffix) => pure (anchor, some (← fullTag handle suffix))

/-- Give an anchor its number: how many names are in use so far. A name that comes again is counted
too, so that it can get the number of another name. -/
def number (name : List Char) : Compose Nat :=
  modifyGet fun c =>
    let anchor := c.names.length
    (anchor, { c with names := (name, anchor) :: c.names.filter (·.1 != name) })

/-- Compose a node, which gets its place among those with anchors before what is inside it. -/
def anchored (anchor : Option (List Char)) (node : Compose Node) : Compose Node := do
  match anchor with
  | none => node
  | some name =>
    let anchor ← number name
    let before := (← get).anchored.length
    modify fun c => { c with anchored := (anchor, .void) :: c.anchored }
    let node ← node
    modify fun c =>
      let place := c.anchored.length - 1 - before
      { c with anchored := c.anchored.modify place fun a => (a.1, node) }
    pure node

/-- Tokens before which the key or value of a block mapping is left out. -/
def blockEntryEnds : List Token := [.key, .value, .blockEnd]

mutual

/-- A node. Inside a block it may be a block collection; as a part of a block mapping it may be a
sequence without an indentation of its own. -/
def node (block indentless : Bool) : Nat → Compose Node
  | 0 => throw .tooDeep
  | fuel + 1 => do
    match ← peek with
    | .alias name =>
      skip
      aliased name
    | _ =>
      let (anchor, tag) ← properties
      anchored anchor do
        match ← peek with
        | .blockEntry =>
          if indentless then pure (.sequence tag (← indentlessItems fuel))
          else emptyNode anchor tag
        | .scalar style text =>
          skip
          pure (.scalar tag style (String.ofList text))
        | .flowSequenceStart =>
          skip
          pure (.sequence tag (← flowItems true fuel))
        | .flowMappingStart =>
          skip
          pure (.mapping tag (← flowEntries true fuel))
        | .blockSequenceStart =>
          if block then
            skip
            pure (.sequence tag (← blockItems fuel))
          else emptyNode anchor tag
        | .blockMappingStart =>
          if block then
            skip
            pure (.mapping tag (← blockEntries fuel))
          else emptyNode anchor tag
        | _ => emptyNode anchor tag
where
  /-- A node of which only an anchor or a tag is given. -/
  emptyNode (anchor : Option (List Char)) (tag : Option Tag) : Compose Node :=
    if anchor.isSome || tag.isSome then pure (.scalar tag .plain "") else throw .noNode

/-- The items of a block sequence. -/
def blockItems : Nat → Compose (List Node)
  | 0 => throw .tooDeep
  | fuel + 1 => do
    if ← accept .blockEntry then
      let item ← if ← follows [.blockEntry, .blockEnd] then pure Node.empty else node true false fuel
      pure (item :: (← blockItems fuel))
    else if ← accept .blockEnd then pure []
    else throw .noSeparator

/-- The items of a sequence that stands at the indentation of its mapping. -/
def indentlessItems : Nat → Compose (List Node)
  | 0 => throw .tooDeep
  | fuel + 1 => do
    if ← accept .blockEntry then
      let item ←
        if ← follows (.blockEntry :: blockEntryEnds) then pure Node.empty else node true false fuel
      pure (item :: (← indentlessItems fuel))
    else pure []

/-- The entries of a block mapping. -/
def blockEntries : Nat → Compose (List (Node × Node))
  | 0 => throw .tooDeep
  | fuel + 1 => do
    if ← accept .key then
      let key ← if ← follows blockEntryEnds then pure Node.empty else node true true fuel
      let value ←
        if ← accept .value then
          if ← follows blockEntryEnds then pure Node.empty else node true true fuel
        else pure Node.empty
      pure ((key, value) :: (← blockEntries fuel))
    else if ← accept .blockEnd then pure []
    else throw .noSeparator

/-- The items of a flow sequence. An item may be a single pair, which is a mapping. -/
def flowItems (first : Bool) : Nat → Compose (List Node)
  | 0 => throw .tooDeep
  | fuel + 1 => do
    if ← accept .flowSequenceEnd then pure []
    else
      let separated ← if first then pure true else accept .flowEntry
      if !separated then throw .noSeparator
      if ← accept .key then
        let key ←
          if ← follows [.value, .flowEntry, .flowSequenceEnd] then
            -- a token is lost together with the key
            skip
            pure Node.empty
          else node false false fuel
        let value ←
          if ← accept .value then
            if ← follows [.flowEntry, .flowSequenceEnd] then pure Node.empty
            else node false false fuel
          else pure Node.empty
        pure (.mapping none [(key, value)] :: (← flowItems false fuel))
      else if ← accept .flowSequenceEnd then pure []
      else
        let item ← node false false fuel
        pure (item :: (← flowItems false fuel))

/-- The entries of a flow mapping. An entry may be a key alone. -/
def flowEntries (first : Bool) : Nat → Compose (List (Node × Node))
  | 0 => throw .tooDeep
  | fuel + 1 => do
    if ← accept .flowMappingEnd then pure []
    else
      let separated ← if first then pure true else accept .flowEntry
      if !separated then throw .noSeparator
      if ← accept .key then
        let key ←
          if ← follows [.value, .flowEntry, .flowMappingEnd] then pure Node.empty
          else node false false fuel
        let value ←
          if ← accept .value then
            if ← follows [.flowEntry, .flowMappingEnd] then pure Node.empty
            else node false false fuel
          else pure Node.empty
        pure ((key, value) :: (← flowEntries false fuel))
      else if ← accept .flowMappingEnd then pure []
      else
        let key ← node false false fuel
        pure ((key, Node.empty) :: (← flowEntries false fuel))

end

/-- The directives in front of a document. Each may be given once, and the version has to be 1.1 or
1.2. -/
def directives : Nat → Bool → Compose Unit
  | 0, _ => pure ()
  | fuel + 1, versioned => do
    match ← peek with
    | .version major minor =>
      if versioned || major != 1 || (minor != 1 && minor != 2) then throw .badDirective
      skip
      directives fuel true
    | .tagDirective handle start =>
      if ((← get).handles.lookup handle).isSome then throw .badDirective
      skip
      modify fun c => { c with handles := c.handles ++ [(handle, start)] }
      directives fuel versioned
    | _ => pure ()

/-- The tag handles that every document has, unless it says otherwise. -/
def standardHandles : List (List Char × Tag) :=
  [(['!'], bareTag), (['!', '!'], bytesOf "tag:yaml.org,2002:".toList)]

/-- The node of a document after its start marker. -/
def content (fuel : Nat) : Compose Node := do
  match ← peek with
  | .version _ _ => pure Node.empty
  | .tagDirective _ _ => pure Node.empty
  | .documentStart => pure Node.empty
  | .documentEnd => pure Node.empty
  | .streamEnd => pure Node.empty
  | _ => node true false fuel

def document (fuel : Nat) : Compose Node := do
  let marked ← match ← peek with
    | .version _ _ => pure true
    | .tagDirective _ _ => pure true
    | .documentStart => pure true
    | _ => pure false
  directives fuel false
  modify fun c => { c with handles := c.handles ++ standardHandles }
  if marked then
    if ← accept .documentStart then content fuel else throw .noDocumentStart
  else node true false fuel

/-- Past markers of the end of a document. -/
def skipDocumentEnds : Nat → Compose Unit
  | 0 => pure ()
  | fuel + 1 => do
    if ← accept .documentEnd then skipDocumentEnds fuel

def stream (fuel : Nat) : Compose Node := do
  if (← peek) == .streamEnd then pure .void
  else
    let root ← document fuel
    skipDocumentEnds fuel
    if (← peek) == .streamEnd then pure root else throw .severalDocuments

end Compose

def Document.ofText (text : String) : Except Fault Document := do
  let tokens ← Yaml.tokens text
  let (root, c) ← (Compose.stream (2 * tokens.length + 4)).run ⟨tokens, [], [], []⟩
  pure ⟨root, c.anchored⟩

end Lifecycle.Yaml
