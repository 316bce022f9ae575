import Lifecycle.Decimal.Rounding
import Lifecycle.Random.ChaCha
import Lifecycle.Random.Generator

/-!
# The seeded generator

A number expands to a key, and the key to an endless sequence of words; draws take words from its
front. Equal seeds give equal draws.
-/

namespace Lifecycle

/-- A sequence of words: those left of the last block, and the number of the next one. -/
structure Seeded where
  key : Vector UInt32 8
  next : Nat
  left : List UInt32

namespace Seeded

/-- One step of the generator that a seed is expanded with. -/
def keyStep (s : UInt64) : UInt64 :=
  s * 6364136223846793005 + 11634580027462260723

/-- The word that a state of that generator gives: its upper bits, folded and rotated. -/
def keyWord (s : UInt64) : UInt32 :=
  let folded := (((s >>> 18) ^^^ s) >>> 27).toUInt32
  let turn := (s >>> 59).toUInt32
  (folded >>> turn) ||| (folded <<< ((32 - turn) % 32))

def keyWords : Nat → UInt64 → List UInt32
  | 0, _ => []
  | n + 1, s => keyWord (keyStep s) :: keyWords n (keyStep s)

def ofSeed (seed : UInt64) : Seeded :=
  ⟨Vector.ofFn fun i => (keyWords 8 seed).getD i 0, 0, []⟩

/-- The seed that stands for none. -/
def standardSeed : UInt64 := 3

def standard : Seeded := ofSeed standardSeed

def word (g : Seeded) : Nat × Seeded :=
  match g.left with
  | w :: rest => (w.toNat, { g with left := rest })
  | [] =>
    match ChaCha.block g.key g.next with
    | w :: rest => (w.toNat, { g with next := g.next + 1, left := rest })
    | [] => (0, g)

/-- The next two words as one number, the first being its low half. -/
def doubleWord (g : Seeded) : Nat × Seeded :=
  let (low, g) := g.word
  let (high, g) := g.word
  (high * Nat.pow 2 32 + low, g)

/-- A number below a positive bound: the upper half of a word times the bound, the word being drawn
again while the lower half lies in the part that would favour some numbers. Each word is accepted
with a chance above one half; after as many words as given, the last one counts. -/
def scaled (bound zone : Nat) : Nat → Seeded → Nat × Seeded
  | 0, g => (0, g)
  | tries + 1, g =>
    let (w, g) := g.word
    let product := w * bound
    if product % Nat.pow 2 32 ≤ zone || tries == 0 then (product / Nat.pow 2 32, g)
    else scaled bound zone tries g

/-- The number of words after which `below` settles for what it has. -/
def patience : Nat := 1000

def below (bound : Nat) (g : Seeded) : Nat × Seeded :=
  if bound == 0 then (0, g)
  else scaled bound (bound * Nat.pow 2 (31 - bound.log2) - 1) patience g

def long (g : Seeded) : Nat × Seeded :=
  let (n, g) := g.doubleWord
  (n % Nat.pow 2 63, g)

/-- The upper 53 bits of two words as the binary places of a fraction. -/
def unit (g : Seeded) : Float × Seeded :=
  let (n, g) := g.doubleWord
  (Decimal.nearest (n / Nat.pow 2 11) (Nat.pow 2 53), g)

/-- The uppermost bit of a word. -/
def bool (g : Seeded) : Bool × Seeded :=
  let (w, g) := g.word
  (decide (Nat.pow 2 31 ≤ w), g)

/-- The low bytes of as many words as given. -/
def bytes : Nat → Seeded → List Nat × Seeded
  | 0, g => ([], g)
  | n + 1, g =>
    let (w, g) := g.word
    let (rest, g) := bytes n g
    (w % 256 :: rest, g)

def hexByte (n : Nat) : List Char :=
  [Nat.digitChar (n / 16 % 16), Nat.digitChar (n % 16)]

/-- The text of a UUID; a hyphen stands in front of the bytes 4, 6, 8 and 10. -/
def uuidText (bytes : List Nat) : String :=
  String.ofList <| bytes.zipIdx.flatMap fun (b, i) =>
    (if [4, 6, 8, 10].contains i then ['-'] else []) ++ hexByte b

/-- The bytes of a random UUID: version 4 and the standard variant are set in them. -/
def markRandom (bytes : List Nat) : List Nat :=
  bytes.zipIdx.map fun (b, i) =>
    if i == 6 then b % 16 + 0x40 else if i == 8 then b % 64 + 0x80 else b

def uuid (g : Seeded) : String × Seeded :=
  let (bytes, g) := bytes 16 g
  (uuidText (markRandom bytes), g)

instance : Generator Seeded := ⟨below, long, unit, bool, uuid⟩

end Seeded

end Lifecycle
