/-!
# Generators of values

What made-up data is drawn from. A generator is a state from which primitive values are drawn one
after the other.
-/

namespace Lifecycle

/-- Generators, by how each kind of value is drawn from a state. -/
class Generator (γ : Type) where
  /-- a natural number below a bound, `0` if the bound is `0` -/
  below : Nat → γ → Nat × γ
  /-- a natural number of at most 63 bits -/
  long : γ → Nat × γ
  /-- a number from `0` up to below `1` -/
  unit : γ → Float × γ
  bool : γ → Bool × γ
  /-- a UUID in hyphenated form -/
  uuid : γ → String × γ

/-- A generator that keeps to the ranges of what it draws. -/
structure Generator.InRange (γ : Type) [Generator γ] : Prop where
  below_lt : ∀ (bound : Nat) (g : γ), 0 < bound → (below bound g).1 < bound
  long_lt : ∀ g : γ, (long g).1 < Nat.pow 2 63
  unit_nonneg : ∀ g : γ, (0.0 : Float) ≤ (unit g).1
  unit_lt : ∀ g : γ, (unit g).1 < (1.0 : Float)

end Lifecycle
