import Lifecycle.Mock.Test
import Lifecycle.Sample.Encode

/-!
# Mock tests as JSON
-/

namespace Lifecycle.Mock

open Json

def Response.toJson (r : Response) : Value :=
  .object [("status_code", .integer r.status.toNat), ("body", r.body)]

def TestCall.toJson : TestCall → Value
  | .call sample => .object (("kind", .string "collection_method") :: sample.members)
  | .create sample => .object (("kind", .string "resource_create") :: sample.members)

def Test.toJson (t : Test) : Value :=
  .object
    [("name", .string t.name), ("collection", .string t.collection),
      ("method_name", .string t.method), ("call", t.call.toJson),
      ("response", t.response.toJson), ("verification_object", .string t.verified)]

end Lifecycle.Mock
