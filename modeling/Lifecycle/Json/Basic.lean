import Lifecycle.Keyed

/-!
# JSON values

A number is an integer or a double. Objects keep their members in the order in which they were
written, one member per key.
-/

namespace Lifecycle.Json

inductive Number
  | integer (value : Int)
  | double (value : Float)

inductive Value
  | null
  | bool (value : Bool)
  | number (value : Number)
  | string (value : String)
  | array (items : List Value)
  | object (members : List (String × Value))

instance : Inhabited Value := ⟨.null⟩

def Value.integer (n : Int) : Value := .number (.integer n)

/-- A finite double as a value; there is no number for the others. -/
def Value.double (x : Float) : Value :=
  if x.isFinite then .number (.double x) else .null

def Value.strings (items : List String) : Value := .array (items.map .string)

/-- A value that may be missing. -/
def Value.optional (encode : α → Value) : Option α → Value
  | none => .null
  | some a => encode a

def Value.isNull : Value → Bool
  | .null => true
  | _ => false

/-- The member of an object; other values have none. -/
def Value.member? (key : String) : Value → Option Value
  | .object members => members.lookup key
  | _ => none

end Lifecycle.Json
