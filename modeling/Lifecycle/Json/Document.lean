import Lifecycle.Json.Fault

/-!
# Documents

A document is what a JSON text spells, as far as it can be read. Nothing is decided about a text
beyond its first flaw: the flaw stands in the tree at the place where it was met, and it depends on
what is asked of the document whether it comes to light. A part may be taken, for its value, or be
passed over; taking a number or a string is stricter than passing it over.

`Document.ofValue` is the document of a flawless text with a given value.
-/

namespace Lifecycle.Json

/-- The text of a number or a string, read in both ways. -/
structure Token (α : Type) where
  taken : Except Malformed α
  /-- the flaw met when the token is passed over -/
  passed : Option Malformed

/-- How the items of a container come to their end. -/
inductive Closing
  | closed
  /-- the text ends where a separator or the closing bracket is due -/
  | ended
  /-- the text ends after a separator -/
  | endedAfterComma
  /-- a separator stands before the closing bracket -/
  | commaClosed
  /-- neither a separator nor the closing bracket follows -/
  | unseparated

mutual

/-- What a text spells. `within` says that a container lies within the depth limit. -/
inductive Document
  | null
  | bool (value : Bool)
  | number (token : Token Number)
  | string (token : Token String)
  | array (within : Bool) (items : Items)
  | object (within : Bool) (entries : Entries)
  /-- a literal that is not spelt to its end -/
  | misspelt (cause : Malformed)
  /-- no value starts here -/
  | unreadable (cause : Malformed)

inductive Items
  | done (closing : Closing)
  | more (item : Document) (rest : Items)

inductive Entries
  | done (closing : Closing)
  /-- something other than a string stands where a key is due -/
  | stray
  | more (key : Token String) (value : Document) (rest : Entries)

end

def Token.sound (a : α) : Token α := ⟨.ok a, none⟩

mutual

/-- The document of a flawless text that spells a value. -/
def Document.ofValue : Value → Document
  | .null => .null
  | .bool b => .bool b
  | .number n => .number (.sound n)
  | .string s => .string (.sound s)
  | .array items => .array true (Items.ofValues items)
  | .object members => .object true (Entries.ofMembers members)

def Items.ofValues : List Value → Items
  | [] => .done .closed
  | v :: rest => .more (Document.ofValue v) (Items.ofValues rest)

def Entries.ofMembers : List (String × Value) → Entries
  | [] => .done .closed
  | (k, v) :: rest => .more (.sound k) (Document.ofValue v) (Entries.ofMembers rest)

end

/-- The flaw in the end of an array whose items are taken. -/
def Closing.itemFlaw : Closing → Option Malformed
  | .closed => none
  | .ended => some .endInList
  | .endedAfterComma => some .endInValue
  | .commaClosed => some .trailingComma
  | .unseparated => some .noListSeparator

/-- The flaw in the end of an object whose entries are taken. -/
def Closing.entryFlaw : Closing → Option Malformed
  | .closed => none
  | .ended => some .endInObject
  | .endedAfterComma => some .endInValue
  | .commaClosed => some .trailingComma
  | .unseparated => some .noObjectSeparator

/-- The flaw in the end of an array that is passed over. -/
def Closing.itemFlawPassed : Closing → Option Malformed
  | .commaClosed => some .noValue
  | closing => closing.itemFlaw

/-- The flaw in the end of an object that is passed over. -/
def Closing.entryFlawPassed : Closing → Option Malformed
  | .commaClosed => some .keyNotString
  | .endedAfterComma => some .endInObject
  | closing => closing.entryFlaw

mutual

/-- The first flaw met when a document is passed over. -/
def Document.flaw : Document → Option Malformed
  | .null => none
  | .bool _ => none
  | .number token => token.passed
  | .string token => token.passed
  | .array _ items => items.flaw
  | .object _ entries => entries.flaw
  | .misspelt cause => some cause
  | .unreadable cause => some cause

def Items.flaw : Items → Option Malformed
  | .done closing => closing.itemFlawPassed
  | .more item rest =>
    match item.flaw with
    | some cause => some cause
    | none => rest.flaw

def Entries.flaw : Entries → Option Malformed
  | .done closing => closing.entryFlawPassed
  | .stray => some .keyNotString
  | .more key value rest =>
    match key.passed with
    | some cause => some cause
    | none =>
      match value.flaw with
      | some cause => some cause
      | none => rest.flaw

end

end Lifecycle.Json
