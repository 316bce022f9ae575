import Lifecycle.Json.Document
import Lifecycle.Source

/-!
# Taking data from a document

`Document` as a source of structured data. Data is taken in text order, so of several faults the
first in the text is reported; a missing field counts as a fault at the end of its object. A record
may also be written as the array of its fields.
-/

namespace Lifecycle.Json

mutual

/-- How many documents are nested in a document. -/
def Document.rank : Document → Nat
  | .array _ items => items.rank + 1
  | .object _ entries => entries.rank + 1
  | _ => 0

def Items.rank : Items → Nat
  | .done _ => 0
  | .more item rest => max item.rank rest.rank

def Entries.rank : Entries → Nat
  | .done _ => 0
  | .stray => 0
  | .more _ value rest => max value.rank rest.rank

end

/-- A flaw in the text as a fault, if there is one. -/
def refuse : Option Malformed → Except Fault Unit
  | none => .ok ()
  | some cause => .error (.malformed cause)

/-- The value of a token that is taken. -/
def Token.take (token : Token α) : Except Fault α :=
  token.taken.mapError .malformed

/-- The fault of a document that is not what was expected. A flawed number or string is reported
as such. -/
def Document.mismatch (expected : String) : Document → Fault
  | .null => .invalidType .null expected
  | .bool b => .invalidType (.bool b) expected
  | .number token =>
    match token.taken with
    | .ok n => .invalidType (.number n) expected
    | .error cause => .malformed cause
  | .string token =>
    match token.taken with
    | .ok s => .invalidType (.string s) expected
    | .error cause => .malformed cause
  | .array _ _ => .invalidType .sequence expected
  | .object _ _ => .invalidType .map expected
  | .misspelt cause => .malformed cause
  | .unreadable cause => .malformed cause

/-- Enter a container, if it lies within the depth limit. -/
def enter (within : Bool) : Except Fault Unit :=
  if within then .ok () else .error (.malformed .tooDeep)

def Document.text : Document → Except Fault String
  | .string token => token.take
  | d => .error (d.mismatch "a string")

def Document.flag : Document → Except Fault Bool
  | .bool b => .ok b
  | d => .error (d.mismatch "a boolean")

def Document.word : Document → Except Fault UInt16
  | .number token =>
    match token.taken with
    | .error cause => .error (.malformed cause)
    | .ok (.integer n) =>
      if 0 ≤ n ∧ n < Int.pow 2 16 then .ok (UInt16.ofNat n.toNat)
      else .error (.invalidValue (.number (.integer n)) "u16")
    | .ok n => .error (.invalidType (.number n) "u16")
  | d => .error (d.mismatch "u16")

def Document.unit : Document → Except Fault Unit
  | .null => .ok ()
  | d => .error (d.mismatch "unit")

/-- A document, unless it is `null`. -/
def Document.present : Document → Except Fault (Option Document)
  | .null => .ok none
  | d => .ok (some d)

mutual

/-- The value of a document. A key that comes again replaces the value of the first. -/
def Document.tree : Document → Except Fault Value
  | .null => .ok .null
  | .bool b => .ok (.bool b)
  | .number token => token.take.map .number
  | .string token => token.take.map .string
  | .array within items => do
    enter within
    let values ← items.tree
    pure (.array values)
  | .object within entries => do
    enter within
    let members ← entries.tree []
    pure (.object members)
  | .misspelt cause => .error (.malformed cause)
  | .unreadable cause => .error (.malformed cause)

def Items.tree : Items → Except Fault (List Value)
  | .done closing => do
    refuse closing.itemFlaw
    pure []
  | .more item rest => do
    let v ← item.tree
    let values ← rest.tree
    pure (v :: values)

def Entries.tree : Entries → Keyed Value → Except Fault (Keyed Value)
  | .done closing, members => do
    refuse closing.entryFlaw
    pure members
  | .stray, _ => .error (.malformed .keyNotString)
  | .more key value rest, members => do
    let name ← key.take
    let v ← value.tree
    rest.tree (Keyed.put name v members)

end

/-- The items of an array, each taken alike. -/
def Items.list (read : Document → Except Fault α) : Items → Except Fault (List α)
  | .done closing => do
    refuse closing.itemFlaw
    pure []
  | .more item rest => do
    let a ← read item
    let as ← rest.list read
    pure (a :: as)

def Document.list (read : Document → Except Fault α) : Document → Except Fault (List α)
  | .array within items => do
    enter within
    items.list read
  | d => .error (d.mismatch "a sequence")

/-- The entries of an object, each value taken alike, after those already there. -/
def Entries.map (read : Document → Except Fault α) : Entries → Keyed α → Except Fault (Keyed α)
  | .done closing, entries => do
    refuse closing.entryFlaw
    pure entries
  | .stray, _ => .error (.malformed .keyNotString)
  | .more key value rest, entries => do
    let name ← key.take
    let a ← read value
    rest.map read (Keyed.put name a entries)

def Document.map (read : Document → Except Fault α) : Document → Except Fault (Keyed α)
  | .object within entries => do
    enter within
    entries.map read []
  | d => .error (d.mismatch "a map")

/-- The flaw of an array that goes on after all that was expected of it. -/
def Items.surplus : Items → Option Malformed
  | .done .closed => none
  | .done .ended => some .endInList
  | .done .commaClosed => some .trailingComma
  | _ => some .trailingText

/-- The fields of a record written as an array, by position. `met` fields came before, and `shape`
is what the whole array was expected to be. -/
def Items.row {αs : List Type} (met : Nat) (shape : String) :
    Fields Document (Except Fault) αs → Items → Except Fault (Row αs × Items)
  | .none, items => .ok ((), items)
  | .field _ _ absent rest, .done closing => do
    refuse closing.itemFlaw
    -- the first required field is the one that the array is too short for
    match absent with
    | none => .error (.invalidLength met shape)
    | some a =>
      let (row, items) ← Items.row (met + 1) shape rest (.done closing)
      pure ((a, row), items)
  | .field _ read _ rest, .more item items => do
    let a ← read item
    let (row, items) ← Items.row (met + 1) shape rest items
    pure ((a, row), items)

/-- The fields of a record written as an object. Names of no field are passed over. -/
def Entries.row {αs : List Type} (fields : Fields Document (Except Fault) αs) :
    Entries → Slots αs → Except Fault (Row αs)
  | .done closing, slots => do
    refuse closing.entryFlaw
    (fields.finish slots).mapError .missingField
  | .stray, _ => .error (.malformed .keyNotString)
  | .more key value rest, slots => do
    let name ← key.take
    match ← fields.offer name value slots with
    | .unknown => do
      refuse value.flaw
      rest.row fields slots
    | .repeated => .error (.duplicateField name)
    | .stored slots => rest.row fields slots

/-- What an array with the wrong number of fields was expected to be. -/
def recordShape (name : String) (count : Nat) : String :=
  "struct " ++ name ++ " with " ++ toString count ++ (if count == 1 then " element" else " elements")

def Document.record {αs : List Type} (name : String) (fields : Fields Document (Except Fault) αs) :
    Document → Except Fault (Row αs)
  | .array within items => do
    enter within
    let (row, items) ← items.row 0 (recordShape name fields.count) fields
    refuse items.surplus
    pure row
  | .object within entries => do
    enter within
    entries.row fields fields.unmet
  | d => .error (d.mismatch ("struct " ++ name))

def variantNamed (variants : List (String × α)) (name : String) : Except Fault α :=
  match variants.lookup name with
  | some a => .ok a
  | none => .error (.unknownName name (variants.map (·.1)))

/-- The flaw of an object that goes on after a variant and its content. -/
def Entries.surplus : Entries → Option Malformed
  | .done .closed => none
  | .done .ended => some .endInObject
  | _ => some .noValue

/-- A variant is written as its name, or as an object with its name as only key and its content
as value. -/
def Document.choose (variants : List (String × α)) :
    (d : Document) → Except Fault (Choice (Except Fault) Document.rank d α)
  | .string token => do
    let name ← token.take
    let variant ← variantNamed variants name
    pure ⟨variant, none, .ok ()⟩
  | .object within (.more key content rest) => do
    enter within
    let name ← key.take
    let variant ← variantNamed variants name
    have : content.rank < (Document.object within (.more key content rest)).rank := by
      simp only [Document.rank, Entries.rank]
      omega
    pure ⟨variant, some ⟨content, this⟩, refuse rest.surplus⟩
  | .object within .stray => do
    enter within
    throw (.malformed .keyNotString)
  | .object within (.done closing) => do
    enter within
    match closing with
    | .ended => throw (.malformed .endInObject)
    | _ => throw (.malformed .noValue)
  | .unreadable cause => .error (.malformed cause)
  | _ => .error (.malformed .noValue)

instance : Source Document (Except Fault) where
  rank := Document.rank
  text := Document.text
  flag := Document.flag
  word := Document.word
  unit := Document.unit
  tree := Document.tree
  present := Document.present
  list := Document.list
  map := Document.map
  record := Document.record
  choose := Document.choose
  bareName := .error <| .invalidType .bareName "newtype variant"

end Lifecycle.Json
