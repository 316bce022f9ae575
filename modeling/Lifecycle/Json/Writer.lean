import Lifecycle.Decimal.Shortest
import Lifecycle.Json.Basic
import Lifecycle.Text.Quoted

/-!
# Writing JSON

`compact` writes a value without white space, `pretty` with one member or item a line and two
spaces a level. Doubles are written with the fewest digits that read back.
-/

namespace Lifecycle.Json

open Decimal Text

/-- Where doubles are written positionally. -/
structure DoubleFormat where
  /-- the least decimal exponent written positionally -/
  least : Int
  /-- the first decimal exponent that is no longer -/
  bound : Int

/-- Positional from `0.00001` up to below `10^16`, else scientific with a signed exponent; a
positional number always has a fraction. -/
def doubleFormat : DoubleFormat := ⟨-5, 16⟩

def DoubleFormat.text (f : DoubleFormat) (d : Scaled) : String :=
  let digits := Nat.toDigits 10 d.digits
  let count := digits.length
  let scientific : Int := (count : Int) - 1 + d.exponent
  let zeros (n : Int) : List Char := List.replicate n.toNat '0'
  String.ofList <|
    if f.least ≤ scientific && scientific < f.bound then
      if 0 ≤ d.exponent then digits ++ zeros d.exponent ++ ['.', '0']
      else if 0 ≤ scientific then
        let whole := (scientific + 1).toNat
        digits.take whole ++ '.' :: digits.drop whole
      else ['0', '.'] ++ zeros (-scientific - 1) ++ digits
    else
      let fraction := if count ≤ 1 then [] else '.' :: digits.drop 1
      let sign := if 0 ≤ scientific then '+' else '-'
      digits.take 1 ++ fraction ++ ['e', sign] ++ Nat.toDigits 10 scientific.natAbs

def doubleText (x : Float) : String :=
  let bits := x.toBits.toNat
  let sign := if Nat.pow 2 63 ≤ bits then "-" else ""
  let field := bits / Nat.pow 2 52 % 2048
  let fraction := bits % Nat.pow 2 52
  if field == 0 && fraction == 0 then sign ++ "0.0"
  else sign ++ doubleFormat.text (Binary.ofFields field fraction).shortest.trimmed

/-- The text of a number; infinities and what is no number have none but `null`. -/
def Number.text : Number → String
  | .integer n => toString n
  | .double x => if x.isFinite then doubleText x else "null"

def escapeChar (c : Char) : List Char :=
  if c == '"' then ['\\', '"']
  else if c == '\\' then ['\\', '\\']
  else if c == '\n' then ['\\', 'n']
  else if c == '\r' then ['\\', 'r']
  else if c == '\t' then ['\\', 't']
  else if c.toNat == 8 then ['\\', 'b']
  else if c.toNat == 12 then ['\\', 'f']
  else if c.toNat < 32 then
    ['\\', 'u', '0', '0', Nat.digitChar (c.toNat / 16), Nat.digitChar (c.toNat % 16)]
  else [c]

def stringText (s : String) : String :=
  String.ofList ('"' :: s.toList.flatMap escapeChar ++ ['"'])

mutual

/-- A value without white space. -/
def Value.compact : Value → String
  | .null => "null"
  | .bool b => if b then "true" else "false"
  | .number n => n.text
  | .string s => stringText s
  | .array items => "[" ++ String.intercalate "," (compactItems items) ++ "]"
  | .object members => "\x7b" ++ String.intercalate "," (compactMembers members) ++ "\x7d"

def compactItems : List Value → List String
  | [] => []
  | v :: rest => v.compact :: compactItems rest

def compactMembers : List (String × Value) → List String
  | [] => []
  | (k, v) :: rest => (stringText k ++ ":" ++ v.compact) :: compactMembers rest

end

/-- A line break and the indentation of a level. -/
def newline (level : Nat) : String :=
  String.ofList ('\n' :: List.replicate (2 * level) ' ')

/-- The parts of a container, each on a line of its own, between its brackets. An empty one stays on
its line. -/
def lines (level : Nat) (opening closing : String) (parts : List String) : String :=
  if parts.isEmpty then opening ++ closing
  else
    opening ++ newline (level + 1) ++ String.intercalate ("," ++ newline (level + 1)) parts
      ++ newline level ++ closing

mutual

/-- A value laid out over lines, from an indentation level on. -/
def Value.prettyAt (level : Nat) : Value → String
  | .null => "null"
  | .bool b => if b then "true" else "false"
  | .number n => n.text
  | .string s => stringText s
  | .array items => lines level "[" "]" (prettyItems (level + 1) items)
  | .object members => lines level "\x7b" "\x7d" (prettyMembers (level + 1) members)

def prettyItems (level : Nat) : List Value → List String
  | [] => []
  | v :: rest => v.prettyAt level :: prettyItems level rest

def prettyMembers (level : Nat) : List (String × Value) → List String
  | [] => []
  | (k, v) :: rest => (stringText k ++ ": " ++ v.prettyAt level) :: prettyMembers level rest

end

def Value.pretty (v : Value) : String :=
  v.prettyAt 0

end Lifecycle.Json
