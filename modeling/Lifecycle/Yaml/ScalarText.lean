import Lifecycle.Yaml.Cursor

/-!
# Scalars as they are written

The text of a scalar in its five styles: literal and folded blocks, single and double quotes, and
plain. Each reader starts at the scalar and gives its text and the place after it.
-/

namespace Lifecycle.Yaml

/-- How a line break between two lines is kept: `first` is the break after the last text, `more`
are those of the blank lines that follow. A lone line feed folds to a space. -/
def foldBreaks (first more : List Char) : List Char :=
  match first with
  | '\n' :: _ => if more.isEmpty then [' '] else more
  | _ => first ++ more

/-! ### Blocks -/

/-- Past the indentation and the blank lines before a line of a block, gathering their breaks. An
indentation of zero is not known yet; `widest` is the widest met. -/
def blockBreaks : Nat → Nat → Nat → List Char → Cursor → Except Fault (Nat × List Char × Cursor)
  | 0, _, widest, breaks, c => .ok (widest, breaks, c)
  | fuel + 1, indent, widest, breaks, c =>
    let width := (c.rest.takeWhile (· == ' ')).length
    let c := c.skipMany (if indent == 0 then width else min width (indent - c.column))
    let widest := max widest c.column
    if (indent == 0 || c.column < indent) && starts '\t' c.rest then .error .tabIndentation
    else
      match c.rest with
      | d :: _ =>
        if isBreak d then blockBreaks fuel indent widest (breaks ++ c.breakText) c.skipBreak
        else .ok (widest, breaks, c)
      | [] => .ok (widest, breaks, c)

/-- What a block scalar is made of: its text, the break after the last line, and the breaks of the
blank lines after that. -/
structure BlockText where
  text : List Char
  first : List Char
  more : List Char

/-- The block with a text in front. -/
def BlockText.after (start : List Char) (b : BlockText) : BlockText :=
  { b with text := start ++ b.text }

/-- The lines of a block from here on. `first` is the break after the line before, `more` are the
breaks of the blank lines since, and `indented` says that the line before starts with a blank. -/
def blockLines (literal : Bool) (indent : Nat) :
    Nat → List Char → List Char → Bool → Cursor → Except Fault (BlockText × Cursor)
  | 0, first, more, _, c => .ok (⟨[], first, more⟩, c)
  | fuel + 1, first, more, indented, c =>
    if c.column == indent && !c.rest.isEmpty then
      let blank := startsAny [' ', '\t'] c.rest
      let folds := !literal && starts '\n' first && !indented && !blank
      let gap := if folds then (if more.isEmpty then [' '] else more) else first ++ more
      let line := c.rest.takeWhile fun d => !isBreak d
      let c := c.skipMany line.length
      let first := c.breakText
      let c := if c.rest.isEmpty then c else c.skipBreak
      match blockBreaks (c.size + 1) indent 0 [] c with
      | .error fault => .error fault
      | .ok (_, more, c) =>
        (blockLines literal indent fuel first more blank c).map fun (block, c) =>
          (block.after (gap ++ line), c)
    else .ok (⟨[], first, more⟩, c)

/-- What happens to the line breaks at the end of a block. -/
inductive Chomping
  | strip
  | clip
  | keep

/-- The chomping and indentation indicators of a block, in either order. -/
def blockHeader (c : Cursor) : Except Fault (Chomping × Nat × Cursor) :=
  let chomping (c : Cursor) : Chomping × Cursor :=
    if starts '+' c.rest then (.keep, c.skip)
    else if starts '-' c.rest then (.strip, c.skip)
    else (.clip, c)
  let increment (c : Cursor) : Except Fault (Nat × Cursor) :=
    match c.rest with
    | d :: _ =>
      if d == '0' then .error .badBlockHeader
      else if d.isDigit then .ok (d.toNat - '0'.toNat, c.skip)
      else .ok (0, c)
    | [] => .ok (0, c)
  if startsAny ['+', '-'] c.rest then do
    let (chomp, c) := chomping c
    let (n, c) ← increment c
    pure (chomp, n, c)
  else do
    let (n, c) ← increment c
    let (chomp, c) := chomping c
    pure (chomp, n, c)

/-- A block scalar after its indicator, inside a block of the given indentation. -/
def blockScalar (literal : Bool) (parent : Int) (c : Cursor) :
    Except Fault (List Char × Cursor) := do
  let (chomp, n, c) ← blockHeader c
  let c := c.skipSpaces.skipComment
  if !atLineEnd c.rest then throw .badBlockHeader
  let c := if c.rest.isEmpty then c else c.skipBreak
  let fuel := c.size + 1
  let given := if n == 0 then 0 else (if 0 ≤ parent then parent + n else (n : Int)).toNat
  let (widest, more, c) ← blockBreaks fuel given 0 [] c
  let indent := if given == 0 then max (max widest (parent + 1).toNat) 1 else given
  let (block, c) ← blockLines literal indent fuel [] more false c
  match chomp with
  | .strip => pure (block.text, c)
  | .clip => pure (block.text ++ block.first, c)
  | .keep => pure (block.text ++ block.first ++ block.more, c)

/-! ### Quotes -/

/-- The characters that an escape of one letter stands for. -/
def escapes : List (Char × Nat) := [
  ('0', 0), ('a', 7), ('b', 8), ('t', 9), ('\t', 9), ('n', 10), ('v', 11), ('f', 12), ('r', 13),
  ('e', 27), (' ', 32), ('"', 34), ('/', 47), ('\\', 92), ('N', 0x85), ('_', 0xA0), ('L', 0x2028),
  ('P', 0x2029)]

def hexDigit? (c : Char) : Option Nat :=
  if c.isDigit then some (c.toNat - '0'.toNat)
  else if 'a' ≤ c && c ≤ 'f' then some (c.toNat - 'a'.toNat + 10)
  else if 'A' ≤ c && c ≤ 'F' then some (c.toNat - 'A'.toNat + 10)
  else none

def hexNumber : Nat → Nat → List Char → Option Nat
  | 0, n, _ => some n
  | _ + 1, _, [] => none
  | count + 1, n, c :: rest =>
    match hexDigit? c with
    | some d => hexNumber count (n * 16 + d) rest
    | none => none

def escapeSequence (c : Cursor) : Except Fault (Char × Cursor) :=
  let numbered (digits : Nat) : Except Fault (Char × Cursor) :=
    match hexNumber digits 0 c.rest.tail with
    | some n =>
      if (0xD800 ≤ n && n ≤ 0xDFFF) || 0x10FFFF < n then .error .badEscape
      else .ok (Char.ofNat n, c.skipMany (digits + 1))
    | none => .error .badEscape
  match c.rest with
  | [] => .error .badEscape
  | d :: _ =>
    if d == 'x' then numbered 2
    else if d == 'u' then numbered 4
    else if d == 'U' then numbered 8
    else
      match escapes.lookup d with
      | some n => .ok (Char.ofNat n, c.skip)
      | none => .error .badEscape

/-- Blanks and breaks between the words of a flow scalar, as they are kept. `broken` says that a
line has ended already, after which blanks do not count. -/
def flowGap : Nat → Bool → List Char → List Char → List Char → Cursor → List Char × Cursor
  | 0, _, _, _, _, c => ([], c)
  | fuel + 1, broken, spaces, first, more, c =>
    let done := (if broken then foldBreaks first more else spaces, c)
    match c.rest with
    | [] => done
    | d :: _ =>
      if isSpace d then
        flowGap fuel broken (if broken then spaces else spaces ++ [d]) first more c.skip
      else if isBreak d then
        if broken then flowGap fuel true spaces first (more ++ c.breakText) c.skipBreak
        else flowGap fuel true [] c.breakText more c.skipBreak
      else done

def quotedText (quote : Char) : Nat → Cursor → Except Fault (List Char × Cursor)
  | 0, _ => .error .openQuote
  | fuel + 1, c =>
    let continued (part : List Char) (c : Cursor) : Except Fault (List Char × Cursor) :=
      (quotedText quote fuel c).map fun (text, c) => (part ++ text, c)
    if c.atAnyMarker then .error .markerInQuote
    else
      match c.rest with
      | [] => .error .openQuote
      | d :: rest =>
        if isSpace d || isBreak d then
          let (gap, c) := flowGap (c.size + 1) false [] [] [] c
          continued gap c
        else if d == '\'' && quote == '\'' && starts '\'' rest then continued ['\''] c.skip.skip
        else if d == quote then .ok ([], c.skip)
        else if d == '\\' && quote == '"' then
          match rest with
          | e :: _ =>
            if isBreak e then
              -- an escaped break and the blanks after it leave nothing but further breaks
              let (gap, c) := flowGap (c.size + 1) true [] [] [] c.skip.skipBreak
              continued gap c
            else
              match escapeSequence c.skip with
              | .error fault => .error fault
              | .ok (char, c) => continued [char] c
          | [] => .error .badEscape
        else continued [d] c.skip

def quotedScalar (quote : Char) (c : Cursor) : Except Fault (List Char × Cursor) :=
  quotedText quote (c.size + 1) c.skip

/-! ### Plain -/

/-- Characters that may not follow a colon inside a word of a flow collection. -/
def flowStops : List Char := [',', '?', '[', ']', '{', '}']

/-- Whether a plain scalar ends here: at a colon before a gap and, inside flow collections, at
their indicators. -/
def plainEnds (inFlow : Bool) (rest : List Char) : Bool :=
  (starts ':' rest && atGap rest.tail) || (inFlow && startsAny [',', '[', ']', '{', '}'] rest)

def plainWord (inFlow : Bool) : Nat → Cursor → Except Fault (List Char × Cursor)
  | 0, c => .ok ([], c)
  | fuel + 1, c =>
    if atGap c.rest then .ok ([], c)
    else if inFlow && starts ':' c.rest && startsAny flowStops c.rest.tail then .error .strayColon
    else if plainEnds inFlow c.rest then .ok ([], c)
    else (plainWord inFlow fuel c.skip).map fun (word, next) => (c.rest.take 1 ++ word, next)

/-- Whether a tab stands in the indentation of a line that continues a plain scalar. -/
def tabBelow (indent : Nat) : Nat → Bool → Cursor → Bool
  | 0, _, _ => false
  | fuel + 1, broken, c =>
    match c.rest with
    | [] => false
    | d :: _ =>
      if isSpace d then
        (broken && c.column < indent && d == '\t') || tabBelow indent fuel broken c.skip
      else isBreak d && tabBelow indent fuel true c.skipBreak

/-- The words of a plain scalar from here on, `gap` standing in front of the next one. The result
also says whether the scalar was followed by a line break. -/
def plainText (inFlow : Bool) (indent : Nat) :
    Nat → List Char → Bool → Cursor → Except Fault (List Char × Bool × Cursor)
  | 0, _, broken, c => .ok ([], broken, c)
  | fuel + 1, gap, broken, c =>
    if c.atAnyMarker || starts '#' c.rest then .ok ([], broken, c)
    else
      match plainWord inFlow (c.size + 1) c with
      | .error fault => .error fault
      | .ok (word, next) =>
        let part := if word.isEmpty then [] else gap ++ word
        let broken := broken && word.isEmpty
        match next.rest with
        | [] => .ok (part, broken, next)
        | d :: _ =>
          if isSpace d || isBreak d then
            if tabBelow indent (next.size + 1) broken next then .error .tabIndentation
            else
              let (gap, after) := flowGap (next.size + 1) false [] [] [] next
              let broken := broken || next.line < after.line
              if !inFlow && after.column < indent then .ok (part, broken, after)
              else
                (plainText inFlow indent fuel gap broken after).map fun (text, rest) =>
                  (part ++ text, rest)
          else .ok (part, broken, next)

/-- A plain scalar inside a block of the given indentation. -/
def plainScalar (inFlow : Bool) (parent : Int) (c : Cursor) :
    Except Fault (List Char × Bool × Cursor) :=
  plainText inFlow (parent + 1).toNat (c.size + 1) [] false c

end Lifecycle.Yaml
