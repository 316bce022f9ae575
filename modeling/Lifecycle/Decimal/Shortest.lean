import Lifecycle.Decimal.Rounding

/-!
# Shortest digits of a double

The fewest decimal digits that read back as the same double, and among those the nearest to it.
The double is taken apart into `significand * 2 ^ exponent`; what reads back as it is the interval
halfway to its two neighbours, ends included when the significand is even.
-/

namespace Lifecycle.Decimal

/-- The number `digits * 10 ^ exponent`. -/
structure Scaled where
  digits : Nat
  exponent : Int
deriving Repr, DecidableEq

/-- A positive finite double taken apart. `narrow` says that the neighbour below is only half as
far away as the one above. -/
structure Binary where
  significand : Nat
  exponent : Int
  narrow : Bool
deriving Repr, DecidableEq

/-- The parts of a double given by its exponent and fraction fields. -/
def Binary.ofFields (field fraction : Nat) : Binary :=
  if field == 0 then ⟨fraction, -1074, false⟩
  else ⟨Nat.pow 2 52 + fraction, (field : Int) - 1075, fraction == 0 && decide (1 < field)⟩

/-- A fraction times a power of ten or two, kept as a numerator over a denominator. -/
def scale (base : Nat) (e : Int) (q : Nat × Nat) : Nat × Nat :=
  if 0 ≤ e then (q.1 * Nat.pow base e.toNat, q.2) else (q.1, q.2 * Nat.pow base (-e).toNat)

/-- Whether `n * 10 ^ k` reads back as the double. All sides are brought to quarters of the last
binary place, so that the interval's ends are natural numbers. -/
def Binary.readsBack (b : Binary) (n : Nat) (k : Int) : Bool :=
  let low := 4 * b.significand - (if b.narrow then 1 else 2)
  let high := 4 * b.significand + 2
  let (num, den) := scale 2 (2 - b.exponent) (scale 10 k (n, 1))
  if b.significand % 2 == 0 then decide (low * den ≤ num) && decide (num ≤ high * den)
  else decide (low * den < num) && decide (num < high * den)

/-- The least power of ten above the value, searched for downwards from a bound. -/
def decimalPlaces (num den : Nat) : Nat → Int → Int
  | 0, p => p
  | fuel + 1, p =>
    let (n, d) := scale 10 (1 - p) (num, den)
    -- the value is below 10 ^ p; try one less
    if n < d then decimalPlaces num den fuel (p - 1) else p

/-- The nearer of the two neighbours on the grid of `10 ^ k` that read back, if one does; of two
equally near the even one, so that `2 ^ 50 + 0.75` ends in an eight and `2 ^ 50 + 0.25` in a two. -/
def Binary.onGrid (b : Binary) (k : Int) : Option Scaled :=
  let (num, den) := scale 10 (-k) (scale 2 b.exponent (b.significand, 1))
  let floor := num / den
  let below := decide (0 < floor) && b.readsBack floor k
  let above := b.readsBack (floor + 1) k
  if below && above then some ⟨roundEven num den, k⟩
  else if below then some ⟨floor, k⟩
  else if above then some ⟨floor + 1, k⟩
  else none

/-- The shortest digits of a positive finite double. -/
def Binary.shortest (b : Binary) : Scaled :=
  let (num, den) := scale 2 b.exponent (b.significand, 1)
  let bound : Int := ((Nat.log2 num : Int) - (Nat.log2 den : Int) + 1) * 30103 / 100000 + 2
  let p := decimalPlaces num den 8 bound
  match (List.range 17).findSome? fun n => b.onGrid (p - ((n + 1 : Nat) : Int)) with
  | some d => d
  | none => ⟨num / den, 0⟩

/-- The same number without zeros at the end of its digits. -/
def Scaled.trimmed (d : Scaled) : Scaled :=
  let rec go : Nat → Nat → Int → Scaled
    | 0, n, e => ⟨n, e⟩
    | fuel + 1, n, e => if n != 0 && n % 10 == 0 then go fuel (n / 10) (e + 1) else ⟨n, e⟩
  go 20 d.digits d.exponent

end Lifecycle.Decimal
