import Lifecycle.Text.CaseTable

/-!
# Letter case

Upper and lower case of a character may be several characters. Lower casing a text goes character
by character: lowered texts are only searched for ASCII words here, so which of its two small
forms a capital sigma takes at the end of a word makes no difference.
-/

namespace Lifecycle.Text

/-- The mapping that runs and longer forms describe, identity outside them. -/
def mapCase (runs : List CaseRun) (long : List (Nat × List Nat)) (c : Char) : List Char :=
  match runs.find? (·.covers c.toNat) with
  | some r => [r.target c.toNat]
  | none =>
    match long.lookup c.toNat with
    | some ns => ns.map Char.ofNat
    | none => [c]

def upper (c : Char) : List Char :=
  if c.toNat < 128 then [c.toUpper] else mapCase upperRuns longUpper c

def lower (c : Char) : List Char :=
  if c.toNat < 128 then [c.toLower] else mapCase lowerRuns longLower c

def lowercase (s : String) : List Char :=
  s.toList.flatMap lower

/-- Equality of texts up to the case of ASCII letters. -/
def equalIgnoringCase (s t : String) : Bool :=
  s.toList.map Char.toLower == t.toList.map Char.toLower

end Lifecycle.Text
