import Lifecycle.Decimal.Rounding
import Lifecycle.Json.Document

/-!
# Reading JSON text

From a text to its document. Nothing is refused here: every flaw becomes part of the document.
Strings, numbers and literals follow the JSON grammar; integers outside 64 bits, signed or not, and
`-0` become doubles.
-/

namespace Lifecycle.Json

open Decimal

def skipBlank : List Char → List Char
  | [] => []
  | c :: rest => if c == ' ' || c == '\n' || c == '\t' || c == '\r' then skipBlank rest else c :: rest

def digitValue (c : Char) : Nat := c.toNat - '0'.toNat

/-! ### Numbers -/

/-- The parts of a number as written. -/
structure Numeral where
  negative : Bool
  whole : List Char
  fraction : Option (List Char)
  /-- sign and digits of the exponent -/
  exponent : Option (Bool × List Char)

/-- The text of a number: its parts or the flaw met in taking it, and the rest of the text or the
flaw met in passing over it. -/
structure NumeralScan where
  taken : Except Malformed Numeral
  passed : Except Malformed (List Char)

/-- A number whose text breaks off where a digit is due. -/
def NumeralScan.noDigit : List Char → NumeralScan
  | [] => ⟨.error .endInValue, .error .badNumber⟩
  | _ => ⟨.error .badNumber, .error .badNumber⟩

def scanExponent (numeral : Numeral) : List Char → NumeralScan
  | [] => ⟨.ok numeral, .ok []⟩
  | c :: rest =>
    if c == 'e' || c == 'E' then
      let (negative, digits) :=
        match rest with
        | '+' :: more => (false, more)
        | '-' :: more => (true, more)
        | more => (false, more)
      match digits.takeWhile Char.isDigit with
      | [] => .noDigit digits
      | power =>
        ⟨.ok { numeral with exponent := some (negative, power) },
          .ok (digits.dropWhile Char.isDigit)⟩
    else ⟨.ok numeral, .ok (c :: rest)⟩

def scanFraction (numeral : Numeral) : List Char → NumeralScan
  | '.' :: rest =>
    match rest.takeWhile Char.isDigit with
    | [] => .noDigit rest
    | fraction =>
      scanExponent { numeral with fraction := some fraction } (rest.dropWhile Char.isDigit)
  | rest => scanExponent numeral rest

/-- A number after its sign. -/
def scanNumber (negative : Bool) (cs : List Char) : NumeralScan :=
  match cs.takeWhile Char.isDigit with
  | [] => .noDigit cs
  | '0' :: _ :: _ => ⟨.error .badNumber, .error .badNumber⟩
  | whole => scanFraction ⟨negative, whole, none, none⟩ (cs.dropWhile Char.isDigit)

/-- Digits gathered into a 64 bit significand: those that no longer fit only raise the exponent,
or, after the point, are dropped. -/
structure Significand where
  value : Nat
  exponent : Int
  full : Bool

def Significand.fits (s : Significand) (digit : Nat) : Bool :=
  decide (s.value * 10 + digit < Nat.pow 2 64)

def Significand.addWhole (s : Significand) (c : Char) : Significand :=
  if !s.full && s.fits (digitValue c) then { s with value := s.value * 10 + digitValue c }
  else { s with exponent := s.exponent + 1, full := true }

def Significand.addFraction (s : Significand) (c : Char) : Significand :=
  if !s.full && s.fits (digitValue c) then
    { s with value := s.value * 10 + digitValue c, exponent := s.exponent - 1 }
  else { s with full := true }

/-- A double times a power of ten, by one multiplication or division where the power is a double.
Products beyond the greatest double are out of range. -/
def scaleDouble (x : Float) (e : Int) : Except Malformed Float :=
  if 0 ≤ e then
    if e ≤ 308 then
      let y := x * nearest (Nat.pow 10 e.toNat) 1
      if y.isInf then .error .numberOutOfRange else .ok y
    else if x == 0.0 then .ok x
    else .error .numberOutOfRange
  else if -308 ≤ e then .ok (x / nearest (Nat.pow 10 (-e).toNat) 1)
  else if x == 0.0 then .ok x
  else scaleDouble (x / nearest (Nat.pow 10 308) 1) (e + 308)
termination_by (-e).toNat
decreasing_by omega

/-- The exponent as written, unless it has no 32 bit value. -/
def exponentValue (digits : List Char) : Option Nat :=
  let n := digits.foldl (fun n c => n * 10 + digitValue c) 0
  if n < Nat.pow 2 31 then some n else none

def signedDouble (negative : Bool) (x : Float) : Number :=
  .double (if negative then -x else x)

/-- The number that a numeral denotes. -/
def Numeral.value (n : Numeral) : Except Malformed Number :=
  let whole := n.whole.foldl Significand.addWhole ⟨0, 0, false⟩
  match n.fraction, n.exponent with
  | none, none =>
    if whole.full then
      (scaleDouble (nearest whole.value 1) whole.exponent).map (signedDouble n.negative)
    else if !n.negative then .ok (.integer whole.value)
    else if whole.value == 0 || decide (Nat.pow 2 63 < whole.value) then
      .ok (signedDouble true (nearest whole.value 1))
    else .ok (.integer (-whole.value))
  | fraction, exponent =>
    let all := (fraction.getD []).foldl Significand.addFraction { whole with full := false }
    match exponent with
    | none => (scaleDouble (nearest all.value 1) all.exponent).map (signedDouble n.negative)
    | some (down, digits) =>
      match exponentValue digits with
      | some power =>
        let e := if down then all.exponent - power else all.exponent + power
        (scaleDouble (nearest all.value 1) e).map (signedDouble n.negative)
      | none =>
        if all.value != 0 && !down then .error .numberOutOfRange
        else .ok (signedDouble n.negative 0.0)

/-! ### Strings -/

def hexValue? (c : Char) : Option Nat :=
  if '0' ≤ c && c ≤ '9' then some (c.toNat - '0'.toNat)
  else if 'a' ≤ c && c ≤ 'f' then some (c.toNat - 'a'.toNat + 10)
  else if 'A' ≤ c && c ≤ 'F' then some (c.toNat - 'A'.toNat + 10)
  else none

def byteCount (cs : List Char) : Nat :=
  cs.foldl (fun n c => n + c.utf8Size) 0

/-- The code unit that four hexadecimal digits spell. Four bytes have to be there at all. -/
def hexUnit (cs : List Char) : Except Malformed (Nat × List Char) :=
  let fault : Malformed := if byteCount (cs.take 4) < 4 then .endInString else .badEscape
  match cs with
  | a :: b :: c :: d :: rest =>
    match hexValue? a, hexValue? b, hexValue? c, hexValue? d with
    | some a, some b, some c, some d => .ok (((a * 16 + b) * 16 + c) * 16 + d, rest)
    | _, _, _, _ => .error fault
  | _ => .error fault

/-- The character that an escape after its backslash stands for, other than by code unit. -/
def shortEscape? (c : Char) : Option Char :=
  if c == '"' || c == '\\' || c == '/' then some c
  else if c == 'b' then some (Char.ofNat 8)
  else if c == 'f' then some (Char.ofNat 12)
  else if c == 'n' then some '\n'
  else if c == 'r' then some '\r'
  else if c == 't' then some '\t'
  else none

/-- The character of an escape by code units, a high surrogate taking the low one after it. -/
def unitEscape (cs : List Char) : Except Malformed (Char × List Char) := do
  let (unit, rest) ← hexUnit cs
  if 0xDC00 ≤ unit && unit ≤ 0xDFFF then throw .loneSurrogate
  else if unit < 0xD800 || 0xDBFF < unit then pure (Char.ofNat unit, rest)
  else
    match rest with
    | [] => throw .endInString
    | ['\\'] => throw .endInString
    | '\\' :: 'u' :: more =>
      let (low, rest) ← hexUnit more
      if low < 0xDC00 || 0xDFFF < low then throw .loneSurrogate
      else pure (Char.ofNat ((unit - 0xD800) * 1024 + (low - 0xDC00) + 0x10000), rest)
    | _ => throw .unpairedEscape

/-- The content of a string after its opening quote. -/
def takeString : Nat → List Char → Except Malformed (List Char)
  | 0, _ => .error .endInString
  | _, [] => .error .endInString
  | fuel + 1, c :: rest =>
    if c == '"' then .ok []
    else if c == '\\' then
      match rest with
      | [] => .error .endInString
      | 'u' :: more => do
        let (char, rest) ← unitEscape more
        let content ← takeString fuel rest
        pure (char :: content)
      | e :: more =>
        match shortEscape? e with
        | some char => (takeString fuel more).map (char :: ·)
        | none => .error .badEscape
    else if c.toNat < 32 then .error .controlCharacter
    else (takeString fuel rest).map (c :: ·)

/-- The text after a string that is passed over, from after its opening quote. -/
def passString : Nat → List Char → Except Malformed (List Char)
  | 0, _ => .error .endInString
  | _, [] => .error .endInString
  | fuel + 1, c :: rest =>
    if c == '"' then .ok rest
    else if c == '\\' then
      match rest with
      | [] => .error .endInString
      | 'u' :: more => do
        let (_, rest) ← hexUnit more
        passString fuel rest
      | e :: more => if (shortEscape? e).isSome then passString fuel more else .error .badEscape
    else if c.toNat < 32 then .error .controlCharacter
    else passString fuel rest

/-- A string after its opening quote, and the text after it if it has an end. -/
def scanString (fuel : Nat) (cs : List Char) : Token String × Option (List Char) :=
  let content := (takeString fuel cs).map String.ofList
  match passString fuel cs with
  | .ok rest => (⟨content, none⟩, some rest)
  | .error cause => (⟨content, some cause⟩, none)

/-! ### Values -/

/-- A literal after its first character. -/
def scanLiteral (literal : Document) : List Char → List Char → Document × Option (List Char)
  | [], rest => (literal, some rest)
  | _ :: _, [] => (.misspelt .endInValue, none)
  | c :: more, d :: rest =>
    if c == d then scanLiteral literal more rest else (.misspelt .brokenLiteral, none)

/-- A number after its sign as a document. -/
def scanNumeral (negative : Bool) (cs : List Char) : Document × Option (List Char) :=
  let scan := scanNumber negative cs
  let value := scan.taken.bind Numeral.value
  match scan.passed with
  | .ok rest => (.number ⟨value, none⟩, some rest)
  | .error cause => (.number ⟨value, some cause⟩, none)

/-- The number of containers inside each other that may be taken. -/
def depthLimit : Nat := 127

mutual

/-- The document at the head of a text inside `depth` containers, and the text after it unless
there is a flaw past which nothing can be read. The fuel is no less than the length of the text. -/
def readValue : Nat → Nat → List Char → Document × Option (List Char)
  | 0, _, _ => (.unreadable .endInValue, none)
  | fuel + 1, depth, cs =>
    match skipBlank cs with
    | [] => (.unreadable .endInValue, none)
    | c :: rest =>
      if c == 'n' then scanLiteral .null "ull".toList rest
      else if c == 't' then scanLiteral (.bool true) "rue".toList rest
      else if c == 'f' then scanLiteral (.bool false) "alse".toList rest
      else if c == '-' then scanNumeral true rest
      else if c.isDigit then scanNumeral false (c :: rest)
      else if c == '"' then
        let (token, after) := scanString (fuel + 1) rest
        (.string token, after)
      else if c == '[' then
        let (items, after) := readItems fuel (depth + 1) true rest
        (.array (decide (depth < depthLimit)) items, after)
      else if c == '{' then
        let (entries, after) := readEntries fuel (depth + 1) true rest
        (.object (decide (depth < depthLimit)) entries, after)
      else (.unreadable .noValue, none)

/-- The items from a place where an item, a separator or the closing bracket is due. -/
def readItems : Nat → Nat → Bool → List Char → Items × Option (List Char)
  | 0, _, _, _ => (.done .ended, none)
  | fuel + 1, depth, first, cs =>
    let item (cs : List Char) : Items × Option (List Char) :=
      match readValue fuel depth cs with
      | (item, none) => (.more item (.done .ended), none)
      | (item, some rest) =>
        let (items, after) := readItems fuel depth false rest
        (.more item items, after)
    match skipBlank cs with
    | [] => (.done .ended, none)
    | c :: rest =>
      if c == ']' then (.done .closed, some rest)
      else if first then item (c :: rest)
      else if c == ',' then
        match skipBlank rest with
        | [] => (.done .endedAfterComma, none)
        | ']' :: _ => (.done .commaClosed, none)
        | rest => item rest
      else (.done .unseparated, none)

/-- The entries from a place where a key, a separator or the closing brace is due. -/
def readEntries : Nat → Nat → Bool → List Char → Entries × Option (List Char)
  | 0, _, _, _ => (.done .ended, none)
  | fuel + 1, depth, first, cs =>
    let entry (cs : List Char) : Entries × Option (List Char) :=
      match cs with
      | '"' :: rest =>
        match scanString (fuel + 1) rest with
        | (key, none) => (.more key (.unreadable .endInString) (.done .ended), none)
        | (key, some rest) =>
          match skipBlank rest with
          | [] => (.more key (.unreadable .endInObject) (.done .ended), none)
          | ':' :: rest =>
            match readValue fuel depth rest with
            | (value, none) => (.more key value (.done .ended), none)
            | (value, some rest) =>
              let (entries, after) := readEntries fuel depth false rest
              (.more key value entries, after)
          | _ => (.more key (.unreadable .noColon) (.done .ended), none)
      | _ => (.stray, none)
    match skipBlank cs with
    | [] => (.done .ended, none)
    | c :: rest =>
      if c == '}' then (.done .closed, some rest)
      else if first then entry (c :: rest)
      else if c == ',' then
        match skipBlank rest with
        | [] => (.done .endedAfterComma, none)
        | '}' :: _ => (.done .commaClosed, none)
        | rest => entry rest
      else (.done .unseparated, none)

end

/-- The document that a text opens with, and the text after it. -/
def readText (text : String) : Document × Option (List Char) :=
  let cs := text.toList
  readValue (2 * cs.length + 2) 0 cs

/-- Data read from a text that holds one document and nothing after it. -/
def ofText (decode : Document → Except Fault α) (text : String) : Except Fault α := do
  let (document, after) := readText text
  let value ← decode document
  match skipBlank (after.getD []) with
  | [] => pure value
  | _ => throw (.malformed .trailingText)

end Lifecycle.Json
