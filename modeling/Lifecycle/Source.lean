import Lifecycle.Json.Basic

/-!
# Sources of structured data

Service descriptions and settings can be written in more than one format. What they consist of is
said once, as records of named fields and choices between named variants; `Source` is what a format
has to offer so that they can be read from it.
-/

namespace Lifecycle

/-- The values of fields of the given types. -/
def Row : List Type → Type
  | [] => Unit
  | α :: αs => α × Row αs

/-- The values of those fields that have been met so far. -/
def Slots : List Type → Type
  | [] => Unit
  | α :: αs => Option α × Slots αs

/-- The fields of a record: for each its name, how its value is read, and what it is when the
field is absent. A field without such a value is required. -/
inductive Fields (σ : Type) (m : Type → Type) : List Type → Type 1
  | none : Fields σ m []
  | field {α : Type} {αs : List Type} (name : String) (read : σ → m α) (absent : Option α)
      (rest : Fields σ m αs) : Fields σ m (α :: αs)

namespace Fields

variable {σ : Type} {m : Type → Type}

/-- A field that has to be there. -/
abbrev required {α : Type} {αs : List Type} (name : String) (read : σ → m α)
    (rest : Fields σ m αs) : Fields σ m (α :: αs) :=
  .field name read .none rest

/-- A field with a value for its absence. -/
abbrev defaulted {α : Type} {αs : List Type} (name : String) (read : σ → m α) (absent : α)
    (rest : Fields σ m αs) : Fields σ m (α :: αs) :=
  .field name read (some absent) rest

def count {αs : List Type} : Fields σ m αs → Nat
  | .none => 0
  | .field _ _ _ rest => rest.count + 1

/-- No field has been met. -/
def unmet {αs : List Type} : Fields σ m αs → Slots αs
  | .none => ()
  | .field _ _ _ rest => (Option.none, rest.unmet)

/-- What becomes of a named value that is offered to the fields. -/
inductive Offer (αs : List Type)
  | unknown
  | repeated
  | stored (slots : Slots αs)

/-- Read a named value into the slot of its field. -/
def offer [Monad m] {αs : List Type} (name : String) (value : σ) :
    Fields σ m αs → Slots αs → m (Offer αs)
  | .none, _ => pure .unknown
  | .field own read _ rest, (slot, slots) =>
    if name == own then
      match slot with
      | some _ => pure .repeated
      | Option.none => do
        let a ← read value
        pure (.stored (some a, slots))
    else do
      match ← rest.offer name value slots with
      | .unknown => pure .unknown
      | .repeated => pure .repeated
      | .stored slots => pure (.stored (slot, slots))

/-- The row of all fields once there are no more values, or the first field that is missing. -/
def finish {αs : List Type} : Fields σ m αs → Slots αs → Except String (Row αs)
  | .none, _ => .ok ()
  | .field name _ absent rest, (slot, slots) =>
    match slot.or absent with
    | Option.none => .error name
    | some a => (rest.finish slots).map fun row => (a, row)

end Fields

/-- A variant that was named in `s`: what it stands for, the content given with it if any, and the
check of what follows the content. Content is nested in the choice that it belongs to. -/
structure Choice {σ : Type} (m : Type → Type) (rank : σ → Nat) (s : σ) (α : Type) where
  variant : α
  content : Option { c : σ // rank c < rank s }
  ending : m Unit

/-- What a format offers to those who read from it. Each reader takes one value of the format, and
`m` says what reading can come to. -/
class Source (σ : Type) (m : outParam (Type → Type)) where
  /-- how many values are nested in a value -/
  rank : σ → Nat
  text : σ → m String
  flag : σ → m Bool
  /-- an unsigned 16 bit number -/
  word : σ → m UInt16
  /-- the absence of any value -/
  unit : σ → m Unit
  /-- any value, as JSON -/
  tree : σ → m Json.Value
  /-- the value itself, unless it stands for the absence of one -/
  present : σ → m (Option σ)
  /-- a list, each item read alike -/
  list : {α : Type} → (σ → m α) → σ → m (List α)
  /-- a map from texts, each value read alike -/
  map : {α : Type} → (σ → m α) → σ → m (Keyed α)
  /-- a record, with its name -/
  record : {αs : List Type} → String → Fields σ m αs → σ → m (Row αs)
  /-- a choice between named variants -/
  choose : {α : Type} → List (String × α) → (s : σ) → m (Choice m rank s α)
  /-- the failure of a variant that needs content and is given without -/
  bareName : {α : Type} → m α

namespace Source

variable {σ : Type} {m : Type → Type} [Monad m] [Source σ m]

def optional {α : Type} (read : σ → m α) (s : σ) : m (Option α) := do
  match ← present s with
  | none => pure none
  | some s => some <$> read s

/-- A choice between variants without content. -/
def plainChoice {α : Type} (variants : List (String × α)) (s : σ) : m α := do
  let choice ← choose variants s
  match choice.content with
  | none => pure ()
  | some c => unit c.1
  choice.ending
  pure choice.variant

end Source

end Lifecycle
