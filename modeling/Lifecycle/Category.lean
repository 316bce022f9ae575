import Lifecycle.Url

/-!
# Categories of resources

A resource that can be created is classified by the parent it is created under, which shows in the
URL of its create operation.
-/

namespace Lifecycle

inductive Category
  /-- no create operation is known; the resource can only be read -/
  | immutable
  | resourceGroupAsParent
  | subscriptionAsParent
  | nestedChild
  | scopeAsParent
  | scopeNestedChild
deriving DecidableEq, Repr

namespace Category

/-- The categories of creates, those tried first in front. -/
def priority : List Category :=
  [.resourceGroupAsParent, .subscriptionAsParent, .nestedChild, .scopeAsParent, .scopeNestedChild]

def display : Category → String
  | .immutable => "IMMUTABLE"
  | .resourceGroupAsParent => "RESOURCE_GROUP_AS_PARENT"
  | .subscriptionAsParent => "SUBSCRIPTION_AS_PARENT"
  | .nestedChild => "NESTED_CHILD"
  | .scopeAsParent => "SCOPE_AS_PARENT"
  | .scopeNestedChild => "SCOPE_NESTED_CHILD"

/-- Whether a URL in a subscription, with a literal in front of each parameter, has the shape of a
category. -/
def fitsSubscription (url : Url) (category : Category) : Bool :=
  url.parameters.all (!·.literal.isEmpty) && url.hasSubscription &&
    match category with
    | .resourceGroupAsParent => url.hasResourceGroup && !url.isNested
    | .subscriptionAsParent => !url.hasResourceGroup && !url.isNested
    | .nestedChild => url.isNested
    | _ => false

/-- Whether a URL in a scope, with a literal in front of each further parameter, has the shape of a
category. -/
def fitsScope (url : Url) (category : Category) : Bool :=
  url.parameters.all (fun p => p.kind == .scope || !p.literal.isEmpty) && url.hasScope
    && !url.hasSubscription && !url.hasResourceGroup &&
    match category with
    | .scopeAsParent => !url.isNested
    | .scopeNestedChild => url.isNested
    | _ => false

/-- Whether the URL of a create has the shape of a category. -/
def fits (url : Url) (category : Category) : Bool :=
  fitsSubscription url category || fitsScope url category

end Category

end Lifecycle
