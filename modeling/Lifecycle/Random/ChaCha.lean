/-!
# ChaCha with twelve rounds

The block function of the ChaCha stream cipher: a key and the number of a block give sixteen words.
The block number takes two words; there is no nonce.
-/

namespace Lifecycle.ChaCha

abbrev Word := UInt32

/-- A square of four times four words. -/
abbrev Square := Vector Word 16

def rotateLeft (w : Word) (n : Word) : Word :=
  (w <<< n) ||| (w >>> (32 - n))

/-- Mix four words of a square, given by their places. -/
def quarterRound (a b c d : Fin 16) (s : Square) : Square :=
  let s := s.set a (s[a] + s[b])
  let s := s.set d (rotateLeft (s[d] ^^^ s[a]) 16)
  let s := s.set c (s[c] + s[d])
  let s := s.set b (rotateLeft (s[b] ^^^ s[c]) 12)
  let s := s.set a (s[a] + s[b])
  let s := s.set d (rotateLeft (s[d] ^^^ s[a]) 8)
  let s := s.set c (s[c] + s[d])
  s.set b (rotateLeft (s[b] ^^^ s[c]) 7)

/-- A round over the columns and one over the diagonals. -/
def doubleRound (s : Square) : Square :=
  let s := quarterRound 0 4 8 12 s
  let s := quarterRound 1 5 9 13 s
  let s := quarterRound 2 6 10 14 s
  let s := quarterRound 3 7 11 15 s
  let s := quarterRound 0 5 10 15 s
  let s := quarterRound 1 6 11 12 s
  let s := quarterRound 2 7 8 13 s
  quarterRound 3 4 9 14 s

def rounds : Nat → Square → Square
  | 0, s => s
  | n + 1, s => rounds n (doubleRound s)

/-- The words that every square starts with. -/
def constants : Vector Word 4 := #v[0x61707865, 0x3320646e, 0x79622d32, 0x6b206574]

/-- The square of a block before the rounds. -/
def initial (key : Vector Word 8) (block : Nat) : Square :=
  constants ++ key ++ #v[UInt32.ofNat block, UInt32.ofNat (block / Nat.pow 2 32), 0, 0]

def block (key : Vector Word 8) (n : Nat) : List Word :=
  let s := initial key n
  (Vector.zipWith (· + ·) (rounds 6 s) s).toList

end Lifecycle.ChaCha
