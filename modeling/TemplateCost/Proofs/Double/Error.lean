import TemplateCost.Proofs.Double.Rounded

/-! # How far rounding goes

One rounding raises or lowers a number by a factor of at most 1 + 2 ^ -53. Among the least doubles that
holds of the whole multiples of the least one, since they need no rounding, and so of all products with
whole numbers. The factors of several roundings multiply.
-/
namespace TemplateCost.Double
open Float.Model Float.Model.UnpackedFloat

variable {x y z : ℚ} {m n : ℕ} {k : ℤ} {f g : Float}

/-! ## Factors -/

/-- The most that one rounding raises a number by. -/
def roundingFactor : ℚ := 1 + 1 / 2 ^ 53

/-- The numbers differ by a factor that so many roundings can add up to. -/
def Within (roundings : ℕ) (x y : ℚ) : Prop :=
  ∃ factor : ℚ, 0 < factor ∧ factor ≤ roundingFactor ^ roundings ∧
    factor⁻¹ ≤ roundingFactor ^ roundings ∧ x = factor * y

theorem one_le_roundingFactor : 1 ≤ roundingFactor := by norm_num [roundingFactor]

namespace Within

theorem refl (n : ℕ) (x : ℚ) : Within n x x := by
  have hone := one_le_pow₀ one_le_roundingFactor (n := n)
  exact ⟨1, one_pos, hone, by rwa [inv_one], (one_mul x).symm⟩

theorem symm (h : Within n x y) : Within n y x := by
  obtain ⟨factor, hpos, hle, hinv, rfl⟩ := h
  exact ⟨factor⁻¹, inv_pos.mpr hpos, hinv, by rwa [inv_inv], by rw [inv_mul_cancel_left₀ hpos.ne']⟩

theorem trans (h : Within m x y) (h' : Within n y z) : Within (m + n) x z := by
  obtain ⟨factor, hpos, hle, hinv, rfl⟩ := h
  obtain ⟨factor', hpos', hle', hinv', rfl⟩ := h'
  refine ⟨factor * factor', mul_pos hpos hpos', ?_, ?_, by ring⟩
  · rw [pow_add]
    gcongr
    exact hpos.le.trans hle
  · rw [mul_inv, pow_add]
    gcongr
    exact (inv_pos.mpr hpos).le.trans hinv

theorem mul_right (h : Within n x y) (z : ℚ) : Within n (x * z) (y * z) := by
  obtain ⟨factor, hpos, hle, hinv, rfl⟩ := h
  exact ⟨factor, hpos, hle, hinv, mul_assoc factor y z⟩

theorem mul_left (h : Within n x y) (z : ℚ) : Within n (z * x) (z * y) := by
  rw [mul_comm z x, mul_comm z y]
  exact h.mul_right z

theorem of_le (hx : 0 < x) (hy : 0 < y) (hxy : x ≤ roundingFactor * y) (hyx : y ≤ roundingFactor * x) :
    Within 1 x y := by
  refine ⟨x / y, div_pos hx hy, ?_, ?_, (div_mul_cancel₀ x hy.ne').symm⟩
  · rwa [pow_one, div_le_iff₀ hy]
  · rwa [inv_div, pow_one, div_le_iff₀ hx]

end Within

/-! ## One rounding -/

/-- With all bits of the mantissa in use, one half of the last place is a small part of the number. -/
theorem RoundsTo.within_of_full (h : RoundsTo x n k) (hn : 2 ^ 52 ≤ n) (hk : k ≠ -1074) :
    Within 1 (n * 2 ^ k) x := by
  obtain ⟨s, hs⟩ : ∃ s : ℚ, s = 2 ^ k := ⟨_, rfl⟩
  have hpos : 0 < s := by
    rw [hs]
    positivity
  have hfull : 2 ^ 52 * s ≤ n * s := mul_le_mul_of_nonneg_right (by exact_mod_cast hn) hpos.le
  have hhalf : (2 : ℚ) ^ (k - 1) = s / 2 := by rw [zpow_sub_one₀ two_ne_zero, ← hs, div_eq_mul_inv]
  -- the number is as near to the double as that, and itself at least half of the least with these bits
  have hbounds : 2 ^ 51 * s ≤ x ∧ |x - n * s| ≤ s / 2 ∧ (x < 2 ^ 52 * s → |x - n * s| ≤ s / 4) := by
    rcases h with ⟨hat, hnear⟩ | ⟨rfl, hat, hnear⟩
    · have hlow := hat.full.resolve_right hk
      have hdistance := hnear.near
      rw [← hs] at hlow hdistance
      have hscaled : x - n * s = (x / s - n) * s := by
        rw [sub_mul, div_mul_cancel₀ x hpos.ne']
      refine ⟨by linarith, ?_, fun hlt => absurd hlow (not_le.mpr hlt)⟩
      rw [hscaled, abs_mul, abs_of_pos hpos]
      linarith [mul_le_mul_of_nonneg_right hdistance hpos.le]
    · have hdistance := hnear.near
      rw [hhalf] at hdistance
      push_cast at hdistance ⊢
      have hscaled : x - 2 ^ 52 * s = (x / (s / 2) - 2 ^ 53) * (s / 2) := by
        rw [sub_mul, div_mul_cancel₀ x (half_pos hpos).ne']
        ring
      have hquarter : |x - 2 ^ 52 * s| ≤ s / 4 := by
        rw [hscaled, abs_mul, abs_of_pos (half_pos hpos)]
        linarith [mul_le_mul_of_nonneg_right hdistance (half_pos hpos).le]
      have hlow := (abs_le.mp hquarter).1
      exact ⟨by linarith, by linarith, fun _ => hquarter⟩
  obtain ⟨hlow, hnear, hnearer⟩ := hbounds
  rw [← hs]
  refine Within.of_le (by linarith) (by linarith) ?_ ?_
  · rw [roundingFactor]
    by_cases hlt : x < 2 ^ 52 * s
    · have hdown := (abs_le.mp (hnearer hlt)).1
      linarith
    · have hdown := (abs_le.mp hnear).1
      linarith
  · have hup := (abs_le.mp hnear).2
    rw [roundingFactor]
    linarith

theorem RoundsTo.within (h : RoundsTo x n k) (hc : IsCanonical n k) (hx : 0 < x)
    (hmultiple : IsMultiple x) : Within 1 (n * 2 ^ k) x := by
  by_cases hk : k = -1074
  · subst hk
    rw [h.eq_of_isMultiple hx hmultiple]
    exact .refl 1 x
  · exact h.within_of_full (hc.full.resolve_right hk) hk

theorem IsRounded.within (h : IsRounded x (parts f)) (hmultiple : IsMultiple x) (hf : number? f = some y) :
    Within 1 y x := by
  rw [number?_eq_some_iff] at hf
  generalize parts f = p at h hf
  cases hf with
  | zero s =>
    cases h
    exact .refl 1 0
  | finite s n k hn =>
    cases h with
    | finite _ _ hpos hc hk hround =>
      exact (hround.within hc hpos (isMultiple_signFactor_mul_iff.mp hmultiple)).mul_left _

/-- A product with a whole number is off by one rounding. -/
theorem within_mul {i : ℤ} (hf : number? f = some x) (hg : number? g = some (i : ℚ))
    (hproduct : number? (f * g) = some y) : Within 1 y (x * i) :=
  (isRounded_mul hf hg).within ((isMultiple_of_number? hf).mul_intCast i) hproduct

end TemplateCost.Double
