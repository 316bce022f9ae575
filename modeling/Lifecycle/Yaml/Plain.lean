import Lifecycle.Decimal.Rounding
import Lifecycle.Json.Basic
import Lifecycle.Yaml.ScalarText

/-!
# What plain scalars stand for

A plain scalar stands for null, a boolean, an integer, a float or a text, in this order of
preference. The spellings are those of the core schema, with binary integers added.
-/

namespace Lifecycle.Yaml

open Json

def isNullWord (text : String) : Bool :=
  ["null", "Null", "NULL", "~"].contains text

/-- Spellings of the absence of a value in a plain scalar. -/
def isNullLike (text : String) : Bool :=
  text.isEmpty || isNullWord text

def boolean? (text : String) : Option Bool :=
  if ["true", "True", "TRUE"].contains text then some true
  else if ["false", "False", "FALSE"].contains text then some false
  else none

/-- The natural number that digits of a base spell. -/
def digits? (base : Nat) (cs : List Char) : Option Nat :=
  if cs.isEmpty then none
  else
    cs.foldl (fun acc c =>
      match acc, hexDigit? c with
      | some n, some d => if d < base then some (n * base + d) else none
      | _, _ => none) (some 0)

/-- Digits with a superfluous zero in front, which spell no number. -/
def isPadded (cs : List Char) : Bool :=
  let cs := if startsAny ['+', '-'] cs then cs.tail else cs
  match cs with
  | '0' :: c :: rest => (c :: rest).all Char.isDigit
  | _ => false

/-- A number in one of the bases that are announced by a letter. -/
def based? : List Char → Option Nat
  | '0' :: 'x' :: rest => digits? 16 rest
  | '0' :: 'o' :: rest => digits? 8 rest
  | '0' :: 'b' :: rest => digits? 2 rest
  | _ => none

/-- An integer without a sign or with a plus sign. -/
def unsigned? (cs : List Char) : Option Nat :=
  let rest := if starts '+' cs then cs.tail else cs
  match based? rest with
  | some n => some n
  | none => if isPadded cs then none else digits? 10 rest

def negative? : List Char → Option Int
  | '-' :: rest =>
    match based? rest with
    | some n => some (-(n : Int))
    | none => if isPadded ('-' :: rest) then none else (digits? 10 rest).map fun n => -(n : Int)
  | _ => none

def integer? (text : String) : Option Int :=
  let cs := text.toList
  match unsigned? cs with
  | some n => some n
  | none => negative? cs

/-- The sign of an exponent and the digits after it. -/
def exponent? (cs : List Char) : Option Int :=
  match cs with
  | '-' :: rest => (digits? 10 rest).map fun n => -(n : Int)
  | '+' :: rest => (digits? 10 rest).map Int.ofNat
  | _ => (digits? 10 cs).map Int.ofNat

/-- An unsigned decimal number with a point or an exponent. -/
def decimal? (cs : List Char) : Option Float :=
  let whole := cs.takeWhile Char.isDigit
  let rest := cs.dropWhile Char.isDigit
  let fraction := if starts '.' rest then rest.tail.takeWhile Char.isDigit else []
  let rest := if starts '.' rest then rest.tail.dropWhile Char.isDigit else rest
  let exponent : Option Int :=
    if rest.isEmpty then some 0
    else if startsAny ['e', 'E'] rest then exponent? rest.tail
    else none
  match digits? 10 (whole ++ fraction), exponent with
  | some n, some e => some (Decimal.nearestScaled n (e - fraction.length))
  | _, _ => none

/-- A float. Numbers beyond the greatest double are not floats. -/
def float? (text : String) : Option Float :=
  let cs := text.toList
  if [".inf", ".Inf", ".INF", "+.inf", "+.Inf", "+.INF"].contains text then some (1.0 / 0.0)
  else if ["-.inf", "-.Inf", "-.INF"].contains text then some (-1.0 / 0.0)
  else if [".nan", ".NaN", ".NAN"].contains text then some (0.0 / 0.0)
  else
    let x :=
      if starts '-' cs then (decimal? cs.tail).map (-·)
      else if starts '+' cs then decimal? cs.tail
      else decimal? cs
    x.filter Float.isFinite

/-- An integer as JSON, if it lies in the range of 64 bit integers; only up to 128 bits is a number
taken for an integer at all. -/
inductive Whole
  | fits (value : Int)
  | tooLarge
  | none

def whole (text : String) : Whole :=
  match integer? text with
  | some n =>
    if -(Int.pow 2 63) ≤ n && n < Int.pow 2 64 then .fits n
    else if -(Int.pow 2 127) ≤ n && n < Int.pow 2 128 then .tooLarge
    else .none
  | Option.none => .none

/-- The value that a plain scalar stands for; an integer beyond 64 bits has none. -/
def plainValue? (text : String) : Option Value :=
  if isNullLike text then some .null
  else
    match boolean? text with
    | some b => some (.bool b)
    | none =>
      match whole text with
      | .fits n => some (.integer n)
      | .tooLarge => none
      | .none =>
        match if isPadded text.toList then none else float? text with
        | some x => some (Value.double x)
        | none => some (.string text)

end Lifecycle.Yaml
