import Lifecycle.Yaml.Fault

/-!
# Places in a YAML text

A cursor is the rest of a text together with where it starts. Line breaks are those of YAML 1.1:
carriage return and line feed alone or as a pair, and the next line, line separator and paragraph
separator characters.
-/

namespace Lifecycle.Yaml

/-- What is left of a text, and its place. -/
structure Cursor where
  rest : List Char
  /-- the length of the rest -/
  size : Nat
  line : Nat
  column : Nat
  /-- bytes before the rest -/
  index : Nat

def isSpace (c : Char) : Bool := c == ' ' || c == '\t'

def isBreak (c : Char) : Bool :=
  c == '\n' || c == '\r' || c.toNat == 0x85 || c.toNat == 0x2028 || c.toNat == 0x2029

/-- Characters of anchors, directive names and tag handles. -/
def isWord (c : Char) : Bool := c.isAlphanum || c == '_' || c == '-'

/-- Whether a rest is at its end, a line break or a blank. -/
def atGap : List Char → Bool
  | [] => true
  | c :: _ => isSpace c || isBreak c

/-- Whether a rest is at its end or a line break. -/
def atLineEnd : List Char → Bool
  | [] => true
  | c :: _ => isBreak c

def starts (c : Char) : List Char → Bool
  | [] => false
  | d :: _ => c == d

def startsAny (cs : List Char) : List Char → Bool
  | [] => false
  | d :: _ => cs.contains d

namespace Cursor

def start (cs : List Char) : Cursor := ⟨cs, cs.length, 0, 0, 0⟩

/-- The number of bytes that the next character takes. -/
def width (c : Cursor) : Nat :=
  match c.rest with
  | d :: _ => d.utf8Size
  | [] => 0

def skip (c : Cursor) : Cursor :=
  { rest := c.rest.tail, size := c.size - 1, line := c.line, column := c.column + 1,
    index := c.index + c.width }

def skipMany (c : Cursor) : Nat → Cursor
  | 0 => c
  | n + 1 => c.skip.skipMany n

/-- Past a line break, a pair of carriage return and line feed counting as one. -/
def skipBreak (c : Cursor) : Cursor :=
  match c.rest with
  | '\r' :: '\n' :: rest => ⟨rest, c.size - 2, c.line + 1, 0, c.index + 2⟩
  | rest => ⟨rest.tail, c.size - 1, c.line + 1, 0, c.index + c.width⟩

/-- What a line break stands for in a scalar. -/
def breakText (c : Cursor) : List Char :=
  match c.rest with
  | d :: _ => if d.toNat == 0x2028 || d.toNat == 0x2029 then [d] else ['\n']
  | [] => []

/-- Past all characters of a kind. -/
def skipWhile (p : Char → Bool) (c : Cursor) : Cursor :=
  c.skipMany (c.rest.takeWhile p).length

def skipSpaces (c : Cursor) : Cursor := c.skipWhile isSpace

def skipComment (c : Cursor) : Cursor :=
  if starts '#' c.rest then c.skipWhile fun d => !isBreak d else c

/-- Whether a document marker made of three times a character stands here. -/
def atMarker (c : Cursor) (mark : Char) : Bool :=
  c.column == 0 && c.rest.take 3 == [mark, mark, mark] && atGap (c.rest.drop 3)

def atAnyMarker (c : Cursor) : Bool := c.atMarker '-' || c.atMarker '.'

end Cursor

end Lifecycle.Yaml
