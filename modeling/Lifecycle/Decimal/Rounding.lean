/-!
# Rounding to a double

The double nearest to a fraction, a tie going to the even significand, and infinity from the point
halfway past the greatest finite double. All steps are exact arithmetic on natural numbers.
-/

namespace Lifecycle.Decimal

/-- A fraction rounded to the nearest natural number, a tie to the even one. -/
def roundEven (num den : Nat) : Nat :=
  let floor := num / den
  let twice := 2 * (num % den)
  if twice < den then floor
  else if den < twice then floor + 1
  else if floor % 2 == 0 then floor else floor + 1

/-- The bits of the double nearest to `num / den`, for positive `num` and `den`. -/
def nearestBits (num den : Nat) : Nat :=
  -- the binary exponent of the last place, first guess: one too low at most
  let guess : Int := (Nat.log2 num : Int) - (Nat.log2 den : Int) - 53
  let scaled (e : Int) : Nat × Nat :=
    if 0 ≤ e then (num, den * Nat.pow 2 e.toNat) else (num * Nat.pow 2 (-e).toNat, den)
  let place : Int :=
    let (n, d) := scaled guess
    if n / d < Nat.pow 2 53 then guess else guess + 1
  let place := max place (-1074)
  let (n, d) := scaled place
  let significand := roundEven n d
  -- a significand that rounds up to 2 ^ 53 carries into the exponent field by itself
  let bits :=
    if significand < Nat.pow 2 52 then significand
    else (place + 1074).toNat * Nat.pow 2 52 + significand
  min bits (2047 * Nat.pow 2 52)

/-- The double nearest to `num / den`, for positive `den`. -/
def nearest (num den : Nat) : Float :=
  if num == 0 then 0.0 else Float.ofBits (UInt64.ofNat (nearestBits num den))

/-- The double nearest to `digits * 10 ^ exponent`. -/
def nearestScaled (digits : Nat) (exponent : Int) : Float :=
  if digits == 0 then 0.0
  -- far outside the range of doubles the exact fraction would only be large
  else if 400 < exponent then Float.ofBits (UInt64.ofNat (2047 * Nat.pow 2 52))
  else if exponent < -(400 + (digits.log2 : Int)) then 0.0
  else if 0 ≤ exponent then nearest (digits * Nat.pow 10 exponent.toNat) 1
  else nearest digits (Nat.pow 10 (-exponent).toNat)

end Lifecycle.Decimal
