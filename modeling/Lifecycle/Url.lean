import Lifecycle.Text.Blank
import Lifecycle.Text.Case
import Lifecycle.Text.Search

/-!
# URL templates

A template such as `/subscriptions/{s}/providers/Foo/widgets/{name}` addresses a resource by name
inside its parents. Its tokens are the pieces between slashes; a parameter is paired with the
literal in front of it to a segment, and what the resource lies in is read off the segments from the
innermost outwards.

`Segment.tokens` gives back the tokens of a segment.
-/

namespace Lifecycle

open Text

/-- What a parameter of a URL identifies. -/
inductive ParameterKind
  | resourceGroup
  | subscription
  /-- the first parameter of a URL that starts with it: any resource whatsoever -/
  | scope
  | other
deriving DecidableEq, Repr

/-- The kind of a parameter by the literal in front of it. -/
def ParameterKind.ofLiteral (literal : String) : ParameterKind :=
  let small := lowercase literal
  if small == "resourcegroups".toList then .resourceGroup
  else if small == "subscriptions".toList then .subscription
  else .other

/-- A parameter with the literal in front of it, which is empty if there is none. -/
structure ParameterSegment where
  literal : String
  parameter : String
  kind : ParameterKind
deriving DecidableEq, Repr

inductive Segment
  | literal (name : String)
  | parameter (segment : ParameterSegment)
deriving DecidableEq, Repr

namespace Segment

def isParameter : Segment → Bool
  | .literal _ => false
  | .parameter _ => true

/-- The literal of a segment. -/
def name : Segment → String
  | .literal name => name
  | .parameter p => p.literal

def parameter? : Segment → Option ParameterSegment
  | .literal _ => none
  | .parameter p => some p

end Segment

/-- A piece of a template between slashes. -/
inductive UrlToken
  | literal (name : String)
  | parameter (name : String)
deriving DecidableEq, Repr

/-- What a piece without white space around it is. -/
def UrlToken.ofPiece (piece : List Char) : UrlToken :=
  match piece with
  | '{' :: rest =>
    match dropTail? ['}'] rest with
    | some name => .parameter (String.ofList name)
    | none => .literal (String.ofList piece)
  | _ => .literal (String.ofList piece)

def UrlToken.text : UrlToken → String
  | .literal name => name
  | .parameter name => "\x7b" ++ name ++ "\x7d"

def Segment.tokens : Segment → List UrlToken
  | .literal name => [.literal name]
  | .parameter p =>
    (if p.literal.isEmpty then [] else [.literal p.literal]) ++ [.parameter p.parameter]

/-- The segments of tokens, both from the innermost outwards. A parameter waits for the literal in
front of it; without one it has no literal, and as the outermost token it is the scope. -/
def segmentsOf : Option String → List UrlToken → List Segment
  | none, [] => []
  | some p, [] => [.parameter ⟨"", p, .scope⟩]
  | none, .literal name :: rest => .literal name :: segmentsOf none rest
  | some p, .literal name :: rest =>
    .parameter ⟨name, p, .ofLiteral name⟩ :: segmentsOf none rest
  | none, .parameter p :: rest => segmentsOf (some p) rest
  | some p, .parameter q :: rest => .parameter ⟨"", p, .ofLiteral ""⟩ :: segmentsOf (some q) rest

structure Url where
  path : String
deriving DecidableEq, Repr

namespace Url

/-- The pieces between slashes, trimmed, those that are not blank. -/
def tokens (url : Url) : List UrlToken :=
  (((pieces '/' url.path.toList).map trim).filter (!·.isEmpty)).map UrlToken.ofPiece

/-- The template before its last slash. -/
def parent? (url : Url) : Option Url :=
  match url.path.toList.reverse.dropWhile (· != '/') with
  | [] => none
  | _ :: start => some ⟨String.ofList start.reverse⟩

/-- The segments from the innermost outwards. -/
def segments (url : Url) : List Segment :=
  segmentsOf none url.tokens.reverse

/-- The parameters from the innermost outwards. -/
def parameters (url : Url) : List ParameterSegment :=
  url.segments.filterMap Segment.parameter?

/-- Whether the innermost segment is a parameter, as in the URL of a resource addressed by name. -/
def endsInParameter (url : Url) : Bool :=
  url.segments.head?.any Segment.isParameter

/-- How many parameters of no special kind come before the first special one. -/
def nestLevel (url : Url) : Nat :=
  (url.parameters.takeWhile (·.kind == .other)).length

def hasKind (url : Url) (kind : ParameterKind) : Bool :=
  url.parameters.any (·.kind == kind)

/-- Whether the URL leads into a resource group. -/
def hasResourceGroup (url : Url) : Bool :=
  decide (1 ≤ url.nestLevel) && url.hasKind .resourceGroup

/-- Whether the URL leads into a subscription. A resource group lies in its subscription although
it is itself of a special kind. -/
def hasSubscription (url : Url) : Bool :=
  let level := url.nestLevel
  let isGroup := level == 0 && url.parameters.head?.any (·.kind == .resourceGroup)
  (decide (1 ≤ level) || isGroup) && url.hasKind .subscription

/-- Whether the URL leads into a scope. -/
def hasScope (url : Url) : Bool :=
  decide (1 ≤ url.nestLevel) && url.hasKind .scope

/-- Whether the resource lies in another one of no special kind. -/
def isNested (url : Url) : Bool :=
  decide (1 < url.nestLevel)

end Url

def ParameterKind.display : ParameterKind → String
  | .resourceGroup => "ResourceGroup"
  | .subscription => "Subscription"
  | .scope => "Scope"
  | .other => "Other"

def Segment.display : Segment → String
  | .literal name => "Literal: segName=" ++ name
  | .parameter p =>
    "Parameter: segName=" ++ p.literal ++ ", parameterName=" ++ p.parameter ++ ", type="
      ++ p.kind.display

def Url.display (url : Url) : String :=
  "[" ++ String.intercalate ", " (url.segments.map Segment.display) ++ "]"

end Lifecycle
