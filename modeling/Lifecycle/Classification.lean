import Lifecycle.Notice

/-!
# Classification of resources

For a collection and some candidate resources, `classify` finds out which PUT creates which
resource, in which category, and then binds the operations that update, refresh and delete what was
created, and the actions on it. A method that does not fit is passed over; classification never
fails.
-/

namespace Lifecycle

/-- Properties that every resource has. -/
def identityProperties : List String := ["id", "name", "type"]

namespace Resource

def property? (r : Resource) (name : String) : Option Property :=
  r.properties.find? (·.name == name)

def hasProperty (r : Resource) (name : String) : Bool :=
  (r.property? name).isSome

theorem hasProperty_iff {r : Resource} {name : String} :
    r.hasProperty name = true ↔ ∃ p ∈ r.properties, p.name = name := by
  simp [hasProperty, property?]

/-- Whether a create may be bound: nothing extends the schema, and the resource has an identity. -/
def isCreatable (r : Resource) : Bool :=
  r.schema.derived.isEmpty && identityProperties.all r.hasProperty

end Resource

namespace Phase

/-- The verbs of a phase, preferred ones first. -/
def verbs : Phase → List Verb
  | .create => [.put]
  | .update => [.patch, .put]
  | .refresh => [.get]
  | .delete => [.delete]

/-- Whether a method's name may stand for a phase. -/
def accepts (name : String) : Phase → Bool
  | .create => !speaksOfUpdate name
  | .update => !mentionsOnly "create" "update" name
  | .refresh => mentions "get" name
  | .delete => mentions "delete" name

end Phase

/-- The type of the request body, as it is written in signatures. -/
def Method.bodyType? (m : Method) : Option String :=
  m.operation.bodyParameter?.map (·.type.display)

namespace Client

def bodySchema (client : Client) (m : Method) : Logged (Option Schema) := do
  match m.bodyType? with
  | none => pure none
  | some type =>
    let schema := client.schema? type
    Logged.noteIf schema.isNone (.unknownBodyType type m.name)
    pure schema

/-- The first of some resources that wraps a schema. -/
def wrapperOf? (client : Client) (candidates : List Nat) (schema : String) : Option Nat :=
  candidates.find? fun i =>
    match client.resources[i]? with
    | some r => r.schema.name == schema
    | none => false

/-- Whether a method looks like a create: it puts a body, and its name does not speak of an update
alone. -/
def putsResource (m : Method) : Bool :=
  m.verb == .put && Phase.accepts m.name .create && m.operation.bodyParameter?.isSome

/-- Whether a create is bound for the resource at a position. -/
def isCreated (client : Client) (i : Nat) : Bool :=
  client.resources[i]?.any (·.create.isSome)

/-- The resource that a method creates in a category, whether or not it is created already. -/
def target? (client : Client) (candidates : List Nat) (category : Category) (m : Method) :
    Option Nat := do
  guard (putsResource m)
  let schema ← m.returns.value?
  let i ← client.wrapperOf? candidates schema
  let r ← client.resources[i]?
  guard (r.isCreatable && m.url.endsInParameter && category.fits m.url)
  pure i

/-- The resource that a method may create in a category. -/
def createdBy? (client : Client) (candidates : List Nat) (category : Category) (m : Method) :
    Option Nat :=
  (client.target? candidates category m).filter (!client.isCreated ·)

/-- The create that a method is for a resource that is not taken yet. -/
def createIn (client : Client) (collection : Nat) (candidates taken : List Nat)
    (category : Category) (m : Method) : Logged (Option Binding) := do
  match client.createdBy? candidates category m with
  | none => pure none
  | some i =>
    if taken.contains i then pure none
    else
      match ← client.bodySchema m with
      | some schema => pure (some ⟨i, collection, m.url, m.name, some schema.name, []⟩)
      | none =>
        let name := (client.collections[collection]?.map (·.name)).getD ""
        Logged.note (.noBodySchema name m.name)
        pure none

/-- The creates of a category in a collection, by the order of methods; one for each resource, and
none for those taken. -/
def createsIn (client : Client) (collection : Nat) (candidates : List Nat) (category : Category)
    (taken : List Nat) : List Method → Logged (List Binding)
  | [] => pure []
  | m :: rest => do
    match ← client.createIn collection candidates taken category m with
    | none => client.createsIn collection candidates category taken rest
    | some binding =>
      let more ←
        client.createsIn collection candidates category (binding.resource :: taken) rest
      pure (binding :: more)

def bindCreate (category : Category) (client : Client) (binding : Binding) : Logged Client := do
  let name := (client.resources[binding.resource]?.map (·.name)).getD ""
  Logged.note (.bound .create name binding.method (some (binding.bodySchema.getD "")))
  Logged.note (.categorized name category)
  pure ((client.bind .create binding).modifyResource binding.resource fun r =>
    { r with category })

/-- A method name without the ending of full responses. -/
def plainName (name : String) : String :=
  match Text.dropTail? responseEnding.toList name.toList with
  | some start => String.ofList start
  | none => name

/-- Whether a method counts as one of those behind a method name. -/
def refersTo (name : String) (m : Method) : Bool :=
  let plain := plainName name
  (m.name == plain || (m.kind == .simpleResponse && m.name == plain ++ responseEnding))
    && (m.verb == .get || m.verb == .delete || m.sendsModel)

/-- Positions of all methods of the operation behind a method name, whichever of its names is
given. -/
def referencesTo (methods : List Method) (name : String) : List Nat :=
  (methods.zipIdx.filter fun p => refersTo name p.1).map (·.2)

/-- Bind the creates of some categories, the first that fits each resource, and give the resources
that are created. -/
def createStep (collection : Nat) (candidates : List Nat) :
    List Category → Client × List Nat → Logged (Client × List Nat)
  | [], state => pure state
  | category :: rest, (client, created) => do
    let found ←
      client.createsIn collection candidates category created (client.methods collection)
    let client ← found.foldlM (bindCreate category) client
    createStep collection candidates rest (client, created ++ found.map (·.resource))

/-- The client with the references of a resource's create filled in. -/
def referCreate (collection : Nat) (client : Client) (resource : Nat) : Client :=
  client.modifyResource resource fun r =>
    { r with
      create := r.create.map fun b =>
        { b with references := referencesTo (client.methods collection) b.method } }

/-- Bind the creates of some categories in a collection. -/
def bindCreates (client : Client) (collection : Nat) (candidates : List Nat)
    (categories : List Category) : Logged (Client × List Nat) := do
  let (client, created) ← createStep collection candidates categories (client, [])
  pure (created.foldl (referCreate collection) client, created)

/-! ### Operations on what was created -/

def created? (client : Client) (resource : Nat) : Option (Resource × Binding) := do
  let r ← client.resources[resource]?
  let create ← r.create
  pure (r, create)

/-- Whether a method can be called with no more than what identifies the resource: it requires
nothing in its query, and no parameter of its path is fixed in all methods of the create. -/
def needsIdentityOnly (creates : List Method) (m : Method) : Bool :=
  let isFixed (name : String) (create : Method) : Bool :=
    create.operation.parameters.any fun p =>
      p.location == .path && p.serializedName == name && p.constant && !p.fromClient
  let needsQuery := m.operation.parameters.any fun p =>
    p.location == .query && p.required && p.isCallerSupplied
  let needsFixed := m.operation.parameters.any fun p =>
    p.location == .path && p.isCallerSupplied && creates.all (isFixed p.serializedName)
  !needsQuery && !needsFixed

/-- Whether a method with a certain verb carries a phase of a created resource: it is on the URL of
the create and, unless it deletes the resource, gives the same schema back. -/
def carries (client : Client) (r : Resource) (create : Binding) (phase : Phase) (verb : Verb)
    (m : Method) : Bool :=
  m.verb == verb && Phase.accepts m.name phase
    && (phase == .delete || m.returns.value? == some r.schema.name) && m.url == create.url
    && (if verb == .get || verb == .delete then
          needsIdentityOnly (client.references create) m
        else m.sendsModel)

/-- The method that carries a phase of a created resource: the first in the collection, with the
first verb that has one. -/
def carrier? (client : Client) (r : Resource) (create : Binding) (phase : Phase) : Option Method :=
  phase.verbs.findSome? fun verb =>
    (client.methods create.collection).find? (client.carries r create phase verb)

def bindingTo (client : Client) (resource : Nat) (create : Binding) (m : Method)
    (body : Option Schema) : Binding :=
  { resource
    collection := create.collection
    url := create.url
    method := m.name
    bodySchema := body.map (·.name)
    references := referencesTo (client.methods create.collection) m.name }

/-- What a phase of a resource is to be bound to. An update needs the schema of its body. -/
def followUp (client : Client) (phase : Phase) (resource : Nat) : Logged (Option Binding) := do
  match client.created? resource with
  | none => pure none
  | some (r, create) =>
    match client.carrier? r create phase with
    | none => pure none
    | some m =>
      if phase == .update then
        match ← client.bodySchema m with
        | some schema => pure (some (client.bindingTo resource create m (some schema)))
        | none =>
          let name := (client.collections[create.collection]?.map (·.name)).getD ""
          Logged.note (.noBodySchema name m.name)
          pure none
      else pure (some (client.bindingTo resource create m none))

/-- Bind a phase after the create of a resource, and say whether something was found for it. -/
def bindFollowUp (client : Client) (phase : Phase) (resource : Nat) : Logged (Client × Bool) := do
  match ← client.followUp phase resource with
  | none => pure (client, false)
  | some binding =>
    let name := (client.resources[resource]?.map (·.name)).getD ""
    Logged.note (.bound phase name binding.method binding.bodySchema)
    pure (client.bind phase binding, true)

/-- Whether a method is an action on what was created at a URL: a POST to that URL and one more
literal, which needs nothing beyond paths and bodies. -/
def actsOn (url : Url) (m : Method) : Bool :=
  m.verb == .post && m.url.parent? == some url
    && m.url.segments.head?.any (!·.isParameter)
    && m.operation.parameters.all fun p =>
      p.fromClient || !p.required || p.constant || p.location == .path || p.location == .body

/-- The actions on a resource with a create, if there are any. -/
def actionsOn (client : Client) (resource : Nat) (create : Binding) : Option Actions :=
  let methods := (client.methods create.collection).zipIdx.filter fun p => actsOn create.url p.1
  if methods.isEmpty then none else some ⟨resource, create.collection, methods.map (·.2)⟩

def actions? (client : Client) (resource : Nat) : Option Actions := do
  let (_, create) ← client.created? resource
  client.actionsOn resource create

/-- Bind the actions on a resource, and say whether there are any. -/
def bindActions (client : Client) (resource : Nat) : Client × Bool :=
  match client.actions? resource with
  | none => (client, false)
  | some actions =>
    (client.modifyResource resource fun r => { r with actions := some actions }, true)

def followUps : List Phase := [.update, .refresh, .delete]

/-- Classify some candidate resources against a collection. -/
def classify (client : Client) (collection : Nat) (candidates : List Nat) : Logged Client := do
  let (client, created) ← client.bindCreates collection candidates Category.priority
  let client ← followUps.foldlM (fun client phase =>
    created.foldlM (fun client resource => do
      let (client, _) ← client.bindFollowUp phase resource
      pure client) client) client
  pure (created.foldl (fun client resource => (client.bindActions resource).1) client)

end Client

end Lifecycle
