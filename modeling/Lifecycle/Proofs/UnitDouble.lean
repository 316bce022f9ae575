import Mathlib.Algebra.Group.Nat.Defs
import Lifecycle.Random.Generator

/-!
# Doubles from zero up to below one

A unit draw times a hundred is a finite double, and one above zero does not count as zero. Only the
exponents are followed through multiplication and rounding, with bounds that are far from tight; no
value is computed.
-/
namespace Lifecycle.UnitDouble

open Float.Model Float.Model.UnpackedFloat Format

/-- Zeros, and numbers whose exponent is far below that of infinities. -/
def Moderate : UnpackedFloat → Prop
  | .zero _ => True
  | .finite _ _ e _ => e ≤ 900
  | _ => False

theorem mantissa_shiftRight_le (em : ExtendedMantissa) (n : Nat) :
    (em >>> n).mantissa ≤ em.mantissa := by
  induction n with
  | zero => exact Nat.le_refl _
  | succ n ih =>
    have hs : (em >>> (n + 1)).mantissa = (em >>> n).mantissa / 2 := rfl
    omega

theorem roundedMantissa_le (em : ExtendedMantissa) : em.roundedMantissa ≤ em.mantissa + 1 := by
  unfold ExtendedMantissa.roundedMantissa Accuracy.roundToNearestEven
  split <;> omega

theorem shiftToTargetExponent_le {m k : Nat} {e : Int} (hk : 0 < k) (hm : m < 2 ^ k) :
    let shifted := shiftToTargetExponent binary64 m e .exact
    shifted.1.mantissa ≤ m ∧ shifted.2 ≤ max (max e (k + e - 53)) (-1074) := by
  intro shifted
  constructor
  · exact mantissa_shiftRight_le _ _
  · have hl : m.log2 + 1 ≤ k := by
      by_cases h0 : m = 0
      · subst h0
        exact hk
      · have h := (Nat.log2_lt h0).mpr hm
        omega
    have he : shifted.2 = e + ((max ((m.log2 : Int) + 1 + e - 53) (-1074) - e).toNat : Int) := rfl
    rw [he]
    omega

theorem moderate_round {m : Nat} {e : Int} (hm : m < 2 ^ 106) (he : e ≤ 0) (s : Sign) :
    Moderate (roundWithAccuracy binary64 s m e .exact) := by
  obtain ⟨hm₁, he₁⟩ := shiftToTargetExponent_le (e := e) (by decide) hm
  unfold roundWithAccuracy
  generalize shiftToTargetExponent binary64 m e .exact = first at *
  -- rounding up may need a second shift
  have hr := roundedMantissa_le first.1
  have hm₂ : first.1.roundedMantissa < 2 ^ 107 := by omega
  obtain ⟨-, he₂⟩ := shiftToTargetExponent_le (e := first.2) (by decide) hm₂
  dsimp only
  generalize shiftToTargetExponent binary64 first.1.roundedMantissa first.2 .exact = second at *
  by_cases hz : second.1.mantissa = 0
  · rw [dif_pos hz]
    trivial
  · rw [dif_neg hz]
    change second.2 ≤ 900
    omega

/-- Far from infinity, rounding never ends there. -/
theorem isFinite_pack {u : UnpackedFloat} (h : Moderate u) :
    (Float.Model.pack u).isFinite = true := by
  -- the exponent field is not the one of infinities
  have hf (s : Sign) {k : BitVec 11} (hk : k ≠ -1#11) (m : BitVec 52) :
      (UnpackedFloat.unpack binary64 (packComponents binary64 s k m)).isFinite = true := by
    unfold UnpackedFloat.unpack
    rw [unpackExponent_packComponents]
    dsimp only
    rw [if_neg hk]
    by_cases hz : k = 0#11
    · rw [if_pos hz]
      by_cases hm : unpackMantissa (packComponents binary64 s k m) = 0#52
      · rw [dif_pos hm]
        rfl
      · rw [dif_neg hm]
        rfl
    · rw [if_neg hz]
      rfl
  change (UnpackedFloat.unpack binary64 (UnpackedFloat.pack binary64 u)).isFinite = true
  cases u with
  | infinity s => exact h.elim
  | notANumber => exact h.elim
  | zero s => exact hf s (by decide) 0
  | finite s m e hm =>
    have he : e ≤ 900 := h
    have hbias : (binary64.exponentBias : Int) = 1023 := by decide
    let field := (e + binary64.exponentBias + (52 : Nat)).toNat
    have hfield : field < 2047 := by omega
    have hk : BitVec.ofNat 11 field ≠ -1#11 := by
      intro hk
      have hn := congrArg BitVec.toNat hk
      have hall : (-1#11).toNat = 2047 := rfl
      rw [BitVec.toNat_ofNat, Nat.mod_eq_of_lt (by omega), hall] at hn
      omega
    have hlt : ¬ 2 ^ 11 ≤ field + 1 := by omega
    unfold UnpackedFloat.pack
    dsimp only
    rw [if_neg hlt]
    split
    · exact hf s hk _
    · exact hf s (by decide) _

theorem mantissa_lt_of_unpack {b : BitVec 64} {s : Sign} {m : Nat} {e : Int} {hm : 0 < m}
    (h : UnpackedFloat.unpack binary64 b = .finite s m e hm) : m < 2 ^ 53 := by
  unfold UnpackedFloat.unpack at h
  dsimp only at h
  by_cases hk : @unpackExponent binary64 b = -1#11
  · rw [if_pos hk] at h
    by_cases hz : @unpackMantissa binary64 b = 0#52
    · rw [if_pos hz] at h
      cases h
    · rw [if_neg hz] at h
      cases h
  · rw [if_neg hk] at h
    by_cases hs : @unpackExponent binary64 b = 0#11
    · rw [if_pos hs] at h
      by_cases hz : @unpackMantissa binary64 b = 0#52
      · rw [dif_pos hz] at h
        cases h
      · rw [dif_neg hz] at h
        cases h
        have hb := (@unpackMantissa binary64 b).isLt
        omega
    · rw [if_neg hs] at h
      cases h
      exact (1#1 ++ @unpackMantissa binary64 b).isLt

theorem unpack_zero : (0.0 : Float).toModel.unpack = .zero .positive := rfl

theorem unpack_one :
    (1.0 : Float).toModel.unpack = .finite .positive (2 ^ 52) (-52) (by decide) := rfl

theorem unpack_hundred :
    (100.0 : Float).toModel.unpack = .finite .positive (100 * 2 ^ 46) (-46) (by decide) := rfl

/-- A number from zero up to one has no exponent above that of its last digit. -/
theorem unpack_of_unit {x : Float} (h₀ : (0.0 : Float) ≤ x) (h₁ : x < (1.0 : Float)) :
    (∃ s, x.toModel.unpack = .zero s) ∨
      ∃ s m e hm, x.toModel.unpack = .finite s m e hm ∧ m < 2 ^ 53 ∧ e ≤ -52 := by
  have hz : (0.0 : Float).toModel.unpack.le x.toModel.unpack = true := of_decide_eq_true h₀
  have ho : x.toModel.unpack.lt (1.0 : Float).toModel.unpack = true := of_decide_eq_true h₁
  rw [unpack_zero] at hz
  rw [unpack_one] at ho
  cases hx : x.toModel.unpack with
  | notANumber =>
    rw [hx] at ho
    cases ho
  | infinity s =>
    rw [hx] at hz ho
    cases s with
    | positive => cases ho
    | negative => cases hz
  | zero s => exact .inl ⟨s, rfl⟩
  | finite s m e hm =>
    refine .inr ⟨s, m, e, hm, rfl, mantissa_lt_of_unpack hx, ?_⟩
    rw [hx] at hz ho
    cases s with
    | negative => cases hz
    | positive =>
      have ho : (some ((compare e (-52)).then (compare m (2 ^ 52))) == some Ordering.lt) = true := ho
      rw [beq_iff_eq, Option.some.injEq, Ordering.then_eq_lt] at ho
      rcases ho with he | ⟨he, -⟩
      · have hlt := Int.compare_eq_lt.mp he
        omega
      · have heq := Int.compare_eq_eq.mp he
        omega

/-- A percentage is finite, so it can be written as a number. -/
theorem isFinite_mul_hundred {x : Float} (h₀ : (0.0 : Float) ≤ x) (h₁ : x < (1.0 : Float)) :
    (x * 100.0).isFinite = true := by
  change (Float.Model.pack (UnpackedFloat.mul binary64 x.toModel.unpack
    (100.0 : Float).toModel.unpack)).isFinite = true
  apply isFinite_pack
  rw [unpack_hundred]
  rcases unpack_of_unit h₀ h₁ with ⟨s, hx⟩ | ⟨s, m, e, hm, hx, hlt, he⟩
  · rw [hx]
    trivial
  · rw [hx]
    apply moderate_round
    · omega
    · omega

theorem not_le_zero {x : Float} (h : (0.0 : Float) < x) : ¬ x ≤ (0.0 : Float) := by
  intro hle
  have hlt : (0.0 : Float).toModel.unpack.lt x.toModel.unpack = true := of_decide_eq_true h
  have hle : x.toModel.unpack.le (0.0 : Float).toModel.unpack = true := of_decide_eq_true hle
  rw [unpack_zero] at hlt hle
  cases hx : x.toModel.unpack with
  | notANumber =>
    rw [hx] at hlt
    cases hlt
  | zero s =>
    rw [hx] at hlt
    cases hlt
  | infinity s =>
    rw [hx] at hlt hle
    cases s with
    | positive => cases hle
    | negative => cases hlt
  | finite s m e hm =>
    rw [hx] at hlt hle
    cases s with
    | positive => cases hle
    | negative => cases hlt

end Lifecycle.UnitDouble
