import Lifecycle.Yaml.ScalarText

/-!
# Tokens of a YAML text

A text is cut into indicators, scalars, anchors, aliases, tags and directives. Indentation becomes
tokens too: a block collection starts before its first entry and ends where the indentation falls
back. A simple key is only recognized at the colon after it, so its tokens are put in place late.
-/

namespace Lifecycle.Yaml

/-- Whether a scalar is plain, a literal block, or written otherwise. -/
inductive Style
  | plain
  | literal
  | other
deriving DecidableEq

/-- A tag is known by its bytes, which need not be those of a text. -/
abbrev Tag := List UInt8

def bytesOf (cs : List Char) : List UInt8 := cs.flatMap String.utf8EncodeChar

/-- The tag that is a lone exclamation mark. -/
def bareTag : Tag := bytesOf ['!']

inductive Token
  | streamEnd
  | version (major minor : Nat)
  | tagDirective (handle : List Char) (start : Tag)
  | documentStart
  | documentEnd
  | blockSequenceStart
  | blockMappingStart
  | blockEnd
  | flowSequenceStart
  | flowSequenceEnd
  | flowMappingStart
  | flowMappingEnd
  | blockEntry
  | flowEntry
  | key
  | value
  | alias (name : List Char)
  | anchor (name : List Char)
  | tag (handle : List Char) (suffix : Tag)
  | scalar (style : Style) (text : List Char)
deriving DecidableEq

/-- A place where a simple key may have started. -/
structure KeyStart where
  /-- the number of tokens before it -/
  place : Nat
  line : Nat
  column : Nat
  index : Nat
  /-- it stands at the block's indentation, where only a key can stand -/
  required : Bool

/-- A scan in progress. -/
structure Scan where
  cursor : Cursor
  tokens : Array Token
  flowLevel : Nat
  /-- the indentation of the innermost block, `-1` outside all -/
  indent : Int
  outer : List Int
  keyAllowed : Bool
  /-- possible simple keys, one for each flow level, the innermost first -/
  keys : List (Option KeyStart)

namespace Scan

def start (cs : List Char) : Scan :=
  { cursor := .start cs, tokens := #[], flowLevel := 0, indent := -1, outer := [],
    keyAllowed := true, keys := [none] }

def emit (s : Scan) (token : Token) : Scan :=
  { s with tokens := s.tokens.push token }

def inFlow (s : Scan) : Bool := decide (0 < s.flowLevel)

/-- Give up the possible simple key of this level. -/
def dropKey (s : Scan) : Except Fault Scan :=
  match s.keys with
  | some key :: rest =>
    if key.required then .error .lostKey else .ok { s with keys := none :: rest }
  | _ => .ok s

/-- Note that a simple key may start here. -/
def noteKey (s : Scan) : Except Fault Scan :=
  if s.keyAllowed then do
    let s ← s.dropKey
    let key : KeyStart :=
      { place := s.tokens.size, line := s.cursor.line, column := s.cursor.column,
        index := s.cursor.index,
        required := !s.inFlow && s.indent == (s.cursor.column : Int) }
    pure { s with keys := some key :: s.keys.tail }
  else .ok s

/-- Forget possible keys that lie on an earlier line or too far back. -/
def dropStaleKeys (s : Scan) : Except Fault Scan := do
  let stale (key : KeyStart) : Bool :=
    decide (key.line < s.cursor.line) || decide (key.index + 1024 < s.cursor.index)
  let keys ← s.keys.mapM fun
    | some key =>
      if stale key then (if key.required then throw Fault.lostKey else pure none)
      else pure (some key)
    | none => pure none
  pure { s with keys }

/-- Open a block collection if a column lies beyond the indentation; its token goes to the given
place among the tokens. -/
def openBlock (s : Scan) (column place : Nat) (token : Token) : Scan :=
  if !s.inFlow && decide (s.indent < (column : Int)) then
    { s with
      indent := column
      outer := s.indent :: s.outer
      tokens := s.tokens.take place ++ #[token] ++ s.tokens.drop place }
  else s

/-- Close the blocks that lie beyond a column. -/
def closeBlocks (s : Scan) (column : Int) : Scan :=
  if s.inFlow then s else go s s.outer
where
  go (s : Scan) : List Int → Scan
    | [] => s
    | i :: outer =>
      if column < s.indent then go { (s.emit .blockEnd) with indent := i, outer } outer else s

/-- Past blanks, comments and line breaks to the next token. In a block, a tab may not stand where
a key could start. -/
def skipToToken : Nat → Scan → Scan
  | 0, s => s
  | fuel + 1, s =>
    let c := s.cursor
    -- a byte order mark may start any line, and is a column of it
    let c := if c.column == 0 && starts (Char.ofNat 0xFEFF) c.rest then c.skip else c
    let tabs := s.inFlow || !s.keyAllowed
    let c := c.skipWhile fun d => d == ' ' || (tabs && d == '\t')
    let c := c.skipComment
    match c.rest with
    | d :: _ =>
      if isBreak d then
        skipToToken fuel { s with cursor := c.skipBreak, keyAllowed := s.keyAllowed || !s.inFlow }
      else { s with cursor := c }
    | [] => { s with cursor := c }

/-- A token of a fixed number of characters. -/
def indicator (s : Scan) (token : Token) (length : Nat) : Scan :=
  { (s.emit token) with cursor := s.cursor.skipMany length }

/-! ### Directives, anchors and tags -/

def versionNumber (c : Cursor) : Except Fault (Nat × Cursor) :=
  let digits := c.rest.takeWhile Char.isDigit
  if digits.isEmpty || 9 < digits.length then .error .badDirective
  else .ok (digits.foldl (fun n d => n * 10 + (d.toNat - '0'.toNat)) 0, c.skipMany digits.length)

/-- A tag handle: an exclamation mark, and possibly a word and another one. -/
def tagHandle (directive : Bool) (c : Cursor) : Except Fault (List Char × Cursor) :=
  if !starts '!' c.rest then .error .badTag
  else
    let c := c.skip
    let word := c.rest.takeWhile isWord
    let c := c.skipMany word.length
    if starts '!' c.rest then .ok ('!' :: word ++ ['!'], c.skip)
    else if directive && !word.isEmpty then .error .badTag
    else .ok ('!' :: word, c)

/-- Characters of tags apart from escapes; `verbatim` adds flow indicators. -/
def isTagChar (verbatim : Bool) (c : Char) : Bool :=
  isWord c || ";/?:@&=+$.!~*'()".toList.contains c || (verbatim && ",[]".toList.contains c)

/-- A byte written as a percent sign and two hexadecimal digits. -/
def escapedByte (c : Cursor) : Except Fault (Nat × Cursor) :=
  match c.rest with
  | '%' :: a :: b :: _ =>
    match hexDigit? a, hexDigit? b with
    | some a, some b => .ok (a * 16 + b, c.skipMany 3)
    | _, _ => .error .badTag
  | _ => .error .badTag

/-- So many escaped bytes, each of them one that goes on with a character. -/
def escapedRest : Nat → Cursor → Except Fault (List UInt8 × Cursor)
  | 0, c => .ok ([], c)
  | count + 1, c => do
    let (byte, c) ← escapedByte c
    if byte / 64 != 2 then throw .badTag
    let (bytes, c) ← escapedRest count c
    pure (UInt8.ofNat byte :: bytes, c)

/-- The escaped bytes of one character. The first byte says how many there are; nothing else is
asked of them, so they may be no character's. -/
def escapedCharacter (c : Cursor) : Except Fault (List UInt8 × Cursor) := do
  let (byte, c) ← escapedByte c
  let further ←
    if byte < 0x80 then pure 0
    else if byte / 32 == 6 then pure 1
    else if byte / 16 == 14 then pure 2
    else if byte / 8 == 30 then pure 3
    else throw Fault.badTag
  let (bytes, c) ← escapedRest further c
  pure (UInt8.ofNat byte :: bytes, c)

/-- The bytes of a tag as it is written from here on. -/
def tagBytes (verbatim : Bool) : Nat → Cursor → Except Fault (List UInt8 × Cursor)
  | 0, c => .ok ([], c)
  | fuel + 1, c =>
    match c.rest with
    | d :: _ =>
      if d == '%' then do
        let (character, c) ← escapedCharacter c
        let (bytes, c) ← tagBytes verbatim fuel c
        pure (character ++ bytes, c)
      else if isTagChar verbatim d then do
        let (bytes, after) ← tagBytes verbatim fuel c.skip
        pure (String.utf8EncodeChar d ++ bytes, after)
      else .ok ([], c)
    | [] => .ok ([], c)

/-- A tag ends before its first null byte, whatever else is written. -/
def upToNull (bytes : List UInt8) : Tag := bytes.takeWhile (· != 0)

/-- A tag that must not be written with nothing. -/
def someTag (verbatim : Bool) (c : Cursor) : Except Fault (Tag × Cursor) := do
  let (bytes, c) ← tagBytes verbatim (c.size + 1) c
  if bytes.isEmpty then throw .badTag
  pure (upToNull bytes, c)

/-- A tag: verbatim, or a handle with a suffix. A lone exclamation mark is its own tag. -/
def tagToken (s : Scan) : Except Fault (Token × Cursor) := do
  let c := s.cursor
  let (token, c) ←
    if starts '<' c.rest.tail then do
      let (tag, c) ← someTag true c.skip.skip
      if !starts '>' c.rest then throw Fault.badTag
      pure (Token.tag [] tag, c.skip)
    else do
      let (handle, after) ← tagHandle false c
      if 1 < handle.length && handle.getLast? == some '!' then
        let (suffix, c) ← someTag false after
        pure (Token.tag handle suffix, c)
      else
        let (bytes, c) ← tagBytes false (after.size + 1) after
        let suffix := upToNull (bytesOf handle.tail ++ bytes)
        pure (if suffix.isEmpty then (Token.tag [] bareTag, c) else (Token.tag ['!'] suffix, c))
  if !atGap c.rest && !(s.inFlow && starts ',' c.rest) then throw .badTag
  pure (token, c)

/-- A directive from its percent sign, to the end of its line. -/
def directiveToken (c : Cursor) : Except Fault (Token × Cursor) := do
  let c := c.skip
  let name := c.rest.takeWhile isWord
  let c := c.skipMany name.length
  if name.isEmpty || !atGap c.rest then throw .badDirective
  let (token, c) ←
    if name == "YAML".toList then do
      let (major, c) ← versionNumber c.skipSpaces
      if !starts '.' c.rest then throw Fault.badDirective
      let (minor, c) ← versionNumber c.skip
      pure (Token.version major minor, c)
    else if name == "TAG".toList then do
      let (handle, c) ← tagHandle true c.skipSpaces
      if !startsAny [' ', '\t'] c.rest then throw Fault.badDirective
      let (start, c) ← someTag true c.skipSpaces
      if !atGap c.rest then throw Fault.badDirective
      pure (Token.tagDirective handle start, c)
    else throw Fault.badDirective
  let c := c.skipSpaces.skipComment
  if !atLineEnd c.rest then throw .badDirective
  pure (token, if c.rest.isEmpty then c else c.skipBreak)

/-- Characters that may follow the name of an anchor directly. -/
def anchorStops : List Char := "?:,]\x7d%@`".toList

/-- The name of an anchor or an alias after its indicator. -/
def anchorName (c : Cursor) : Except Fault (List Char × Cursor) :=
  let name := c.rest.takeWhile isWord
  let c := c.skipMany name.length
  if name.isEmpty || !(atGap c.rest || startsAny anchorStops c.rest) then
    .error .badAnchor
  else .ok (name, c)

/-! ### Tokens -/

/-- A colon: the end of a simple key noted before, or the value of a complex key. -/
def valueToken (s : Scan) : Except Fault Scan :=
  match s.keys with
  | some key :: keys =>
    let s := { s with
      tokens := s.tokens.take key.place ++ #[Token.key] ++ s.tokens.drop key.place
      keys := none :: keys }
    let s := s.openBlock key.column key.place .blockMappingStart
    .ok ({ s with keyAllowed := false }.indicator .value 1)
  | _ =>
    if s.inFlow then .ok ({ s with keyAllowed := false }.indicator .value 1)
    else if !s.keyAllowed then .error .misplacedValue
    else
      let s := s.openBlock s.cursor.column s.tokens.size .blockMappingStart
      .ok ({ s with keyAllowed := true }.indicator .value 1)

/-- A token that ends all blocks: a directive or a document marker. -/
def documentToken (s : Scan) (token : Token) (c : Cursor) : Except Fault Scan := do
  let s ← (s.closeBlocks (-1)).dropKey
  pure { (s.emit token) with cursor := c, keyAllowed := false }

/-- A token at which a simple key may start. -/
def keyToken (s : Scan) (token : Token) (c : Cursor) (keyAllowed : Bool) : Except Fault Scan := do
  let s ← s.noteKey
  pure { (s.emit token) with cursor := c, keyAllowed }

/-- Characters that no plain scalar starts with, unless what follows allows it. -/
def indicators : List Char := "-?:,[]\x7b\x7d#&*!|>'\"%@`".toList

def token (s : Scan) (d : Char) (rest : List Char) : Except Fault Scan := do
  let c := s.cursor
  let gap := atGap rest
  if c.column == 0 && d == '%' then
    let (token, c) ← directiveToken c
    s.documentToken token c
  else if c.atMarker '-' then s.documentToken .documentStart (c.skipMany 3)
  else if c.atMarker '.' then s.documentToken .documentEnd (c.skipMany 3)
  else if d == '[' || d == '{' then
    let s ← s.noteKey
    let token := if d == '[' then Token.flowSequenceStart else .flowMappingStart
    pure ({ s with keys := none :: s.keys, flowLevel := s.flowLevel + 1, keyAllowed := true }.indicator
      token 1)
  else if d == ']' || d == '}' then
    let s ← s.dropKey
    let token := if d == ']' then Token.flowSequenceEnd else .flowMappingEnd
    let keys := if s.inFlow then s.keys.tail else s.keys
    pure ({ s with keys, flowLevel := s.flowLevel - 1, keyAllowed := false }.indicator token 1)
  else if d == ',' then
    let s ← s.dropKey
    pure ({ s with keyAllowed := true }.indicator .flowEntry 1)
  else if d == '-' && gap then
    if !s.inFlow && !s.keyAllowed then throw .misplacedEntry
    let s ← (s.openBlock c.column s.tokens.size .blockSequenceStart).dropKey
    pure ({ s with keyAllowed := true }.indicator .blockEntry 1)
  else if d == '?' && (s.inFlow || gap) then
    if !s.inFlow && !s.keyAllowed then throw .misplacedKey
    let s ← (s.openBlock c.column s.tokens.size .blockMappingStart).dropKey
    pure ({ s with keyAllowed := !s.inFlow }.indicator .key 1)
  else if d == ':' && (s.inFlow || gap) then s.valueToken
  else if d == '*' then
    let (name, c) ← anchorName c.skip
    s.keyToken (.alias name) c false
  else if d == '&' then
    let (name, c) ← anchorName c.skip
    s.keyToken (.anchor name) c false
  else if d == '!' then
    let (token, c) ← s.tagToken
    s.keyToken token c false
  else if (d == '|' || d == '>') && !s.inFlow then
    let s ← s.dropKey
    let (text, c) ← blockScalar (d == '|') s.indent c.skip
    let style := if d == '|' then Style.literal else .other
    pure { (s.emit (.scalar style text)) with cursor := c, keyAllowed := true }
  else if d == '\'' || d == '"' then
    let (text, c) ← quotedScalar d c
    s.keyToken (.scalar .other text) c false
  else if (!isSpace d && !indicators.contains d) || (d == '-' && !startsAny [' ', '\t'] rest)
      || (!s.inFlow && (d == '?' || d == ':') && !gap) then
    let (text, broken, c) ← plainScalar s.inFlow s.indent c
    s.keyToken (.scalar .plain text) c broken
  else throw .strayCharacter

def run : Nat → Scan → Except Fault (Array Token)
  | 0, s => .ok (s.tokens.push .streamEnd)
  | fuel + 1, s => do
    let s ← (s.skipToToken (s.cursor.size + 1)).dropStaleKeys
    let s := s.closeBlocks s.cursor.column
    match s.cursor.rest with
    | [] =>
      let s ← (s.closeBlocks (-1)).dropKey
      pure (s.tokens.push .streamEnd)
    | d :: rest =>
      let s ← s.token d rest
      run fuel s

end Scan

def isAllowed (c : Char) : Bool :=
  let n := c.toNat
  n == 9 || n == 10 || n == 13 || (32 ≤ n && n ≤ 126) || n == 0x85 || (0xA0 ≤ n && n ≤ 0xFFFD)
    || 0x10000 ≤ n

def tokens (text : String) : Except Fault (List Token) := do
  let cs := text.toList
  if !cs.all isAllowed then throw .controlCharacter
  let tokens ← Scan.run (cs.length + 2) (Scan.start cs)
  pure tokens.toList

end Lifecycle.Yaml
