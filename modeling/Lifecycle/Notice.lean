import Lifecycle.Client.Basic

/-!
# Notices

What is logged while a client is made and artifacts are generated, as data: `Notice` says what
happened, `Notice.message` puts it into words. `Logged` is a result together with its notices in
order.
-/

namespace Lifecycle

inductive Level
  | info
  | warn
deriving DecidableEq, Repr

inductive Notice
  /-- a phase of a resource was bound to a method, with the schema of the body if there is one -/
  | bound (phase : Phase) (resource method : String) (body : Option String)
  | categorized (resource : String) (category : Category)
  | unknownBodyType (type method : String)
  | noBodySchema (collection method : String)
  | classificationOff
  | associated (resource collection : String)
  | resourceNotFound (name : String)
  | collectionNotFound (name : String)
  | defined (resource method : String)
  | nameParameterUnknown (parameter method : String)
  | nameParameterMissing (method : String)
  | parentNameMissing (url resource : String)
  | parameterWithoutValue (parameter : String)
  | stageWithoutValue (stage : String)
  | defineWithoutValue (method : String)
  | callExample (name : String)
  | createExample (name : String)
  | updateExample (name : String)
  | createExampleSkipped (name : String)
  | updateExampleSkipped (name : String)
  | methodTestSkipped (method key : String)
  | resourceTestSkipped (schema key : String)
  | generated (resources samples tests : Nat) (directory : String)
deriving DecidableEq, Repr

def Phase.noticeName : Phase → String
  | .create => "ResourceCreate"
  | .update => "ResourceUpdate"
  | .refresh => "ResourceRefresh"
  | .delete => "ResourceDelete"

namespace Notice

def level : Notice → Level
  | .unknownBodyType _ _ => .warn
  | .noBodySchema _ _ => .warn
  | .resourceNotFound _ => .warn
  | .collectionNotFound _ => .warn
  | .nameParameterUnknown _ _ => .warn
  | .nameParameterMissing _ => .warn
  | .parentNameMissing _ _ => .warn
  | .parameterWithoutValue _ => .warn
  | .stageWithoutValue _ => .warn
  | .defineWithoutValue _ => .warn
  | .methodTestSkipped _ _ => .warn
  | .resourceTestSkipped _ _ => .warn
  | _ => .info

/-- A name as it stands in messages. -/
def mark (name : String) : String := "'" ++ name ++ "'"

def message : Notice → String
  | .bound phase resource method body =>
    phase.noticeName ++ ": fluent model " ++ mark resource ++ ", method reference " ++ mark method
      ++ match body with
        | some schema => ", body parameter " ++ mark schema
        | none => ""
  | .categorized resource category =>
    "Fluent model " ++ mark resource ++ " as category " ++ category.display
  | .unknownBodyType type method =>
    "Client model not found for type name " ++ mark type ++ ", method " ++ mark method
  | .noBodySchema collection method =>
    "Client model not found for collection " ++ mark collection ++ ", method " ++ mark method
  | .classificationOff => "Fluent lite disabled, skipping resource classification"
  | .associated resource collection =>
    "Associate resource " ++ mark resource ++ " with collection " ++ mark collection
  | .resourceNotFound name => "Resource " ++ mark name ++ " not found"
  | .collectionNotFound name => "Collection " ++ mark name ++ " not found"
  | .defined resource method =>
    "ResourceCreate: fluent model " ++ mark resource ++ ", resource define method " ++ mark method
  | .nameParameterUnknown parameter method =>
    "Resource name parameter " ++ mark parameter ++ " not found in method " ++ mark method
  | .nameParameterMissing method =>
    "Resource name parameter not found for define method " ++ mark method
  | .parentNameMissing url resource =>
    "Resource name of immediate parent not found for url " ++ mark url ++ ", model "
      ++ mark resource
  | .parameterWithoutValue parameter =>
    "Failed to assign sample value to required parameter " ++ mark parameter
  | .stageWithoutValue stage =>
    "Failed to assign sample value to required stage " ++ mark stage
  | .defineWithoutValue method =>
    "Failed to assign sample value to define method " ++ mark method
  | .callExample name => "Parse collection method example " ++ mark name
  | .createExample name => "Parse resource create example " ++ mark name
  | .updateExample name => "Parse resource update example " ++ mark name
  | .createExampleSkipped name =>
    "Skip possible resource update example " ++ mark name ++ " in create"
  | .updateExampleSkipped name =>
    "Skip possible resource create example " ++ mark name ++ " in update"
  | .methodTestSkipped method key =>
    "Skip unit test for method " ++ mark method ++ ", caused by key " ++ mark key
  | .resourceTestSkipped schema key =>
    "Skip unit test for resource " ++ mark schema ++ ", caused by key " ++ mark key
  | .generated resources samples tests directory =>
    "Generated " ++ toString resources ++ " resource(s), " ++ toString samples
      ++ " sample file(s), " ++ toString tests ++ " mock test(s) in " ++ directory

end Notice

def Level.display : Level → String
  | .info => "INFO"
  | .warn => "WARN"

/-- A notice with its level. -/
def Notice.line (n : Notice) : String :=
  n.level.display ++ " " ++ n.message

/-- A result and the notices that came up on the way to it. -/
structure Logged (α : Type) where
  value : α
  notices : List Notice

namespace Logged

instance : Monad Logged where
  pure a := ⟨a, []⟩
  bind x f := ⟨(f x.value).value, x.notices ++ (f x.value).notices⟩

@[simp] theorem value_pure (a : α) : (pure a : Logged α).value = a := rfl

@[simp] theorem value_bind (x : Logged α) (f : α → Logged β) :
    (x >>= f).value = (f x.value).value := rfl

@[simp] theorem notices_pure (a : α) : (pure a : Logged α).notices = [] := rfl

@[simp] theorem notices_bind (x : Logged α) (f : α → Logged β) :
    (x >>= f).notices = x.notices ++ (f x.value).notices := rfl

instance : LawfulMonad Logged :=
  LawfulMonad.mk' Logged (fun _ => by simp [Functor.map]) (fun _ _ => by simp [bind, pure])
    (fun _ _ _ => by simp [bind])

def note (notice : Notice) : Logged Unit :=
  ⟨(), [notice]⟩

def noteIf (condition : Bool) (notice : Notice) : Logged Unit :=
  ⟨(), if condition then [notice] else []⟩

@[simp] theorem value_note (notice : Notice) : (note notice).value = () := rfl

@[simp] theorem notices_note (notice : Notice) : (note notice).notices = [notice] := rfl

@[simp] theorem value_noteIf (condition : Bool) (notice : Notice) :
    (noteIf condition notice).value = () := rfl

theorem value_foldlM (f : β → α → Logged β) (xs : List α) (start : β) :
    (xs.foldlM f start).value = xs.foldl (fun b a => (f b a).value) start := by
  induction xs generalizing start with
  | nil => rfl
  | cons x rest ih =>
    rw [List.foldlM_cons, value_bind, ih]
    rfl

theorem value_mapM (f : α → Logged β) (xs : List α) :
    (xs.mapM f).value = xs.map fun a => (f a).value := by
  induction xs with
  | nil => rfl
  | cons x rest ih => rw [List.mapM_cons, value_bind, value_bind, ih]; rfl

def warnings (x : Logged α) : List Notice :=
  x.notices.filter (·.level == .warn)

end Logged

end Lifecycle
