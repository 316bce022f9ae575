import Mathlib.Data.List.Basic
import Lifecycle.Identifier

/-!
# Capitals

What a character is raised to is not raised any further and separates no words. The table of upper
case forms goes by runs of code points, so this is checked for pairs of runs: what one of them gives
lies below, above or in the gaps of what another one covers.
-/
namespace Lifecycle

namespace Text

/-- All code points of an interval, as a run. -/
def CaseRun.interval (first last : Nat) : CaseRun := ⟨first, last, 1, 0⟩

/-- What no capital is: the characters that have another upper case form, and the separators of
words. -/
def uncapital : List CaseRun :=
  .interval 97 122 :: upperRuns ++ longUpper.map (fun e => .interval e.1 e.1)
    ++ [.interval 95 95, .interval 45 46] ++ blankRanges.map fun r => .interval r.1 r.2

/-- Whether a code point is outside `uncapital`. -/
def isCapital (n : Nat) : Bool := uncapital.all fun s => !s.covers n

/-- Whether what a run gives is apart from what another one covers: below it, above it or in its
gaps. -/
def CaseRun.apart (r s : CaseRun) : Bool :=
  let first := (r.first + r.offset).toNat
  let last := (r.last + r.offset).toNat
  Nat.blt last s.first || Nat.blt s.last first
    || s.step == 2 && (r.step == 2 || r.first == r.last) && (first + s.first) % 2 == 1

/-! ### Checks of the table -/

theorem apart_upperRuns : (upperRuns.all fun r => uncapital.all r.apart) = true := by
  decide +kernel

theorem letters_upperRuns : ∀ r ∈ upperRuns, 65 ≤ r.first + r.offset := by decide +kernel

theorem isCapital_longUpper : (longUpper.all fun e => e.2.all isCapital) = true := by
  decide +kernel

theorem ne_nil_longUpper : ∀ e ∈ longUpper, e.2 ≠ [] := by decide +kernel

theorem isCapital_toUpper :
    ∀ n < 128, (Char.ofNat n).toUpper = Char.ofNat n ∨
      isCapital (Char.ofNat n).toUpper.toNat = true := by decide +kernel

theorem toUpper_of_not_small :
    ∀ n < 128, ¬ (97 ≤ n ∧ n ≤ 122) → (Char.ofNat n).toUpper = Char.ofNat n := by decide +kernel

theorem isCapital_zero : isCapital 0 = true := by decide +kernel

/-! ### From runs to characters -/

theorem covers_iff {r : CaseRun} {n : Nat} :
    r.covers n = true ↔ (r.first ≤ n ∧ n ≤ r.last) ∧ (n - r.first) % r.step = 0 := by
  simp [CaseRun.covers]

theorem covers_interval {first last n : Nat} :
    (CaseRun.interval first last).covers n = true ↔ first ≤ n ∧ n ≤ last := by
  rw [covers_iff, and_iff_left]
  · rfl
  · exact Nat.mod_one _

/-- What a run maps to lies in no run apart from it. -/
theorem not_covers_of_apart {r s : CaseRun} (h : r.apart s = true)
    (hletter : 65 ≤ r.first + r.offset) {n : Nat} (hn : r.covers n = true) :
    s.covers (n + r.offset).toNat = false := by
  simp only [CaseRun.apart, Bool.or_eq_true, Bool.and_eq_true, Nat.blt_eq, beq_iff_eq] at h
  obtain ⟨⟨hlow, hhigh⟩, hgap⟩ := covers_iff.mp hn
  rw [Bool.eq_false_iff, ne_eq, covers_iff]
  rintro ⟨⟨hlow', hhigh'⟩, hgap'⟩
  rcases h with (hbelow | habove) | ⟨⟨hstep', hstep | hpoint⟩, hodd⟩
  · omega
  · omega
  · rw [hstep] at hgap
    rw [hstep'] at hgap'
    omega
  · rw [hstep'] at hgap'
    omega

theorem not_covers_of_isCapital {s : CaseRun} {n : Nat} (h : isCapital n = true)
    (hs : s ∈ uncapital) : ¬ s.covers n = true := by
  have hcovers := List.all_eq_true.mp h s hs
  simpa using hcovers

/-- What the table maps to is left alone by the whole table. -/
theorem isCapital_target {r : CaseRun} (hr : r ∈ upperRuns) {n : Nat} (hn : r.covers n = true) :
    isCapital (n + r.offset).toNat = true := by
  rw [isCapital, List.all_eq_true]
  intro s hs
  have hapart := List.all_eq_true.mp (List.all_eq_true.mp apart_upperRuns r hr) s hs
  rw [not_covers_of_apart hapart (letters_upperRuns r hr) hn]
  rfl

theorem isCapital_toNat_ofNat {n : Nat} (h : isCapital n = true) :
    isCapital (Char.ofNat n).toNat = true := by
  by_cases hv : n.isValidChar
  · rw [Char.ofNat, dif_pos hv]
    exact h
  · rw [Char.ofNat, dif_neg hv]
    exact isCapital_zero

variable {c d : Char}

/-- Where the upper case form of a character comes from. -/
theorem upper_cases (c : Char) :
    c.toNat < 128 ∧ upper c = [c.toUpper] ∨
      128 ≤ c.toNat ∧ ((∃ r ∈ upperRuns, r.covers c.toNat = true ∧ upper c = [r.target c.toNat]) ∨
        (∃ e ∈ longUpper, upper c = e.2.map Char.ofNat) ∨ upper c = [c]) := by
  unfold upper
  split
  · rename_i hascii
    exact .inl ⟨hascii, rfl⟩
  · rename_i hascii
    refine .inr ⟨Nat.le_of_not_lt hascii, ?_⟩
    unfold mapCase
    cases hrun : upperRuns.find? (·.covers c.toNat) with
    | some r =>
      have hcovers : r.covers c.toNat = true := by simpa using List.find?_some hrun
      exact .inl ⟨r, List.mem_of_find?_eq_some hrun, hcovers, rfl⟩
    | none =>
      cases hlong : longUpper.lookup c.toNat with
      | some ns =>
        obtain ⟨front, back, he, _⟩ := List.lookup_eq_some_iff.mp hlong
        exact .inr (.inl ⟨(c.toNat, ns), by simp [he], rfl⟩)
      | none => exact .inr (.inr rfl)

/-- What a character is raised to is a capital, unless the character stays as it is. -/
theorem isCapital_of_mem_upper (h : d ∈ upper c) : isCapital d.toNat = true ∨ upper c = [c] := by
  rcases upper_cases c with ⟨hascii, hc⟩ | ⟨_, ⟨r, hr, hcovers, hc⟩ | ⟨e, he, hc⟩ | hc⟩
  · rw [hc, List.mem_singleton] at h
    have hletter := isCapital_toUpper c.toNat hascii
    rw [Char.ofNat_toNat, ← h] at hletter
    exact hletter.symm.imp_right fun hd => by rw [hc, ← h, hd]
  · rw [hc, List.mem_singleton] at h
    rw [h]
    exact .inl (isCapital_toNat_ofNat (isCapital_target hr hcovers))
  · rw [hc, List.mem_map] at h
    obtain ⟨n, hn, rfl⟩ := h
    have hlong := List.all_eq_true.mp (List.all_eq_true.mp isCapital_longUpper e he) n hn
    exact .inl (isCapital_toNat_ofNat hlong)
  · exact .inr hc

theorem upper_ne_nil (c : Char) : upper c ≠ [] := by
  rcases upper_cases c with ⟨_, hc⟩ | ⟨_, ⟨r, _, _, hc⟩ | ⟨e, he, hc⟩ | hc⟩
  · simp [hc]
  · simp [hc]
  · simp [hc, ne_nil_longUpper e he]
  · simp [hc]

/-- Capitals stay as they are, those outside ASCII included. -/
theorem upper_of_isCapital (h : isCapital c.toNat = true) : upper c = [c] := by
  have hsmall : ¬ (97 ≤ c.toNat ∧ c.toNat ≤ 122) := by
    rw [← covers_interval]
    exact not_covers_of_isCapital h (by simp [uncapital])
  have hrun : upperRuns.find? (·.covers c.toNat) = none := by
    rw [List.find?_eq_none]
    intro r hr
    exact not_covers_of_isCapital h (by simp [uncapital, hr])
  have hlong : longUpper.lookup c.toNat = none := by
    rw [List.lookup_eq_none_iff]
    intro e he
    have hmem : CaseRun.interval e.1 e.1 ∈ uncapital := by
      simp only [uncapital, List.mem_append, List.mem_map]
      exact .inl (.inl (.inr ⟨e, he, rfl⟩))
    have hkey := not_covers_of_isCapital h hmem
    rw [covers_interval] at hkey
    rw [bne_iff_ne]
    omega
  unfold upper
  split
  · rename_i hascii
    have hkept := toUpper_of_not_small c.toNat hascii hsmall
    rw [Char.ofNat_toNat] at hkept
    rw [hkept]
  · rw [mapCase, hrun, hlong]

/-- Raising a character twice is raising it once, character by character. -/
theorem upper_of_mem_upper (h : d ∈ upper c) : upper d = [d] := by
  rcases isCapital_of_mem_upper h with hd | hc
  · exact upper_of_isCapital hd
  · rw [hc, List.mem_singleton] at h
    rwa [h]

end Text

open Text

variable {c d : Char}

theorem isWordSeparator_iff :
    isWordSeparator c = true ↔ c = '_' ∨ c = '-' ∨ c = '.' ∨ isBlank c = true := by
  simp only [isWordSeparator, Bool.or_eq_true, beq_iff_eq, or_assoc]

theorem not_isWordSeparator_of_isCapital (h : isCapital c.toNat = true) :
    isWordSeparator c = false := by
  have houtside (first last : Nat) (hs : CaseRun.interval first last ∈ uncapital) :
      ¬ (first ≤ c.toNat ∧ c.toNat ≤ last) := by
    rw [← covers_interval]
    exact not_covers_of_isCapital h hs
  rw [Bool.eq_false_iff, ne_eq, isWordSeparator_iff]
  rintro (rfl | rfl | rfl | hb)
  · exact houtside 95 95 (by simp [uncapital]) (by decide)
  · exact houtside 45 46 (by simp [uncapital]) (by decide)
  · exact houtside 45 46 (by simp [uncapital]) (by decide)
  · obtain ⟨r, hr, hc⟩ := List.any_eq_true.mp hb
    have hmem : CaseRun.interval r.1 r.2 ∈ uncapital := by
      simp only [uncapital, List.mem_append, List.mem_map]
      exact .inr ⟨r, hr, rfl⟩
    exact houtside r.1 r.2 hmem (by simpa using hc)

theorem not_isWordSeparator_of_mem_upper (hc : isWordSeparator c = false) (h : d ∈ upper c) :
    isWordSeparator d = false := by
  rcases isCapital_of_mem_upper h with hd | he
  · exact not_isWordSeparator_of_isCapital hd
  · rw [he, List.mem_singleton] at h
    rwa [h]

end Lifecycle
