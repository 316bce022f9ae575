import Lifecycle.Json.Writer

/-!
# What can be wrong with a JSON text

A fault is either malformed text or well-formed data of the wrong shape. `Fault.message` is its
wording.
-/

namespace Lifecycle.Json

/-- Ways in which a text is no JSON. -/
inductive Malformed
  | endInValue
  | endInString
  | endInObject
  | endInList
  | noValue
  | brokenLiteral
  | noColon
  | noObjectSeparator
  | noListSeparator
  | keyNotString
  | trailingComma
  | trailingText
  | badEscape
  | badNumber
  | numberOutOfRange
  | controlCharacter
  | unpairedEscape
  | loneSurrogate
  | tooDeep

def Malformed.message : Malformed → String
  | .endInValue => "EOF while parsing a value"
  | .endInString => "EOF while parsing a string"
  | .endInObject => "EOF while parsing an object"
  | .endInList => "EOF while parsing a list"
  | .noValue => "expected value"
  | .brokenLiteral => "expected ident"
  | .noColon => "expected `:`"
  | .noObjectSeparator => "expected `,` or `\x7d`"
  | .noListSeparator => "expected `,` or `]`"
  | .keyNotString => "key must be a string"
  | .trailingComma => "trailing comma"
  | .trailingText => "trailing characters"
  | .badEscape => "invalid escape"
  | .badNumber => "invalid number"
  | .numberOutOfRange => "number out of range"
  | .controlCharacter => "control character (\\u0000-\\u001F) found while parsing a string"
  | .unpairedEscape => "unexpected end of hex escape"
  | .loneSurrogate => "lone leading surrogate in hex escape"
  | .tooDeep => "recursion limit exceeded"

/-- What was found where something else was expected. -/
inductive Found
  | null
  | bool (value : Bool)
  | number (value : Number)
  | string (value : String)
  | sequence
  | map
  | bareName

def Found.describe : Found → String
  | .null => "null"
  | .bool b => "boolean `" ++ (if b then "true" else "false") ++ "`"
  | .number (.integer n) => "integer `" ++ toString n ++ "`"
  | .number (.double x) => "floating point `" ++ doubleText x ++ "`"
  | .string s => "string " ++ Text.quoted s
  | .sequence => "sequence"
  | .map => "map"
  | .bareName => "unit variant"

/-- What kept a text from being read as data of a certain shape. -/
inductive Fault
  | malformed (cause : Malformed)
  | missingField (name : String)
  | duplicateField (name : String)
  | unknownName (name : String) (known : List String)
  | invalidType (found : Found) (expected : String)
  | invalidValue (found : Found) (expected : String)
  | invalidLength (length : Nat) (expected : String)

def marked (name : String) : String :=
  "`" ++ name ++ "`"

def Fault.message : Fault → String
  | .malformed cause => cause.message
  | .missingField name => "missing field " ++ marked name
  | .duplicateField name => "duplicate field " ++ marked name
  | .unknownName name known =>
    "unknown variant " ++ marked name ++ ", expected one of "
      ++ String.intercalate ", " (known.map marked)
  | .invalidType found expected => "invalid type: " ++ found.describe ++ ", expected " ++ expected
  | .invalidValue found expected =>
    "invalid value: " ++ found.describe ++ ", expected " ++ expected
  | .invalidLength length expected =>
    "invalid length " ++ toString length ++ ", expected " ++ expected

end Lifecycle.Json
