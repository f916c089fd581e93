import TemplateCost.Decimal.Shortest
import TemplateCost.Proofs.Double.Scientific

/-! # The shortest decimal of a double

A grid gives a decimal only if it lies in the interval of the double, and what lies there is rounded to
the double. With seventeen digits the grid is so fine that one of the two neighbours always lies in the
interval: the fewest digits that read back are found.
-/
namespace TemplateCost.Decimal
open Double

/-- The number that the digits stand for. -/
def Digits.number (d : Digits) : ℚ := d.significand * 10 ^ d.exponent

theorem Digits.number_normalize (d : Digits) : d.normalize.number = d.number := by
  rw [Digits.normalize]
  split
  · rename_i h
    have hten : (d.significand : ℚ) = 10 * (d.significand / 10 : ℕ) := by
      exact_mod_cast (Nat.mul_div_cancel' (Nat.dvd_of_mod_eq_zero h.2)).symm
    rw [Digits.number, Digits.number, hten, zpow_add_one₀ (by norm_num)]
    ring
  · rfl

namespace Binary64
variable {b : Binary64} {tie : Tie} {k : ℤ} {c : ℕ} {x : ℚ}

/-! ## The interval of a double -/

/-- The number without its sign. -/
def absolute (b : Binary64) : ℚ := b.mantissa * 2 ^ b.exponent

/-- The number lies in the interval of the double, or on its border if the mantissa is even. -/
def Owns (b : Binary64) (x : ℚ) : Prop :=
  let low : ℚ := b.quarters.1 * 2 ^ (b.exponent - 2)
  let high : ℚ := b.quarters.2.2 * 2 ^ (b.exponent - 2)
  if b.mantissa % 2 = 0 then low ≤ x ∧ x ≤ high else low < x ∧ x < high

/-- What is left of the interval below the double, in quarters of a unit. -/
def below (b : Binary64) : ℕ :=
  if b.mantissa = smallestNormal ∧ leastExponent < b.exponent then 1 else 2

theorem quarters_eq (b : Binary64) :
    b.quarters = (4 * b.mantissa - b.below, 4 * b.mantissa, 4 * b.mantissa + 2) := rfl

theorem below_cases (b : Binary64) : b.below = 1 ∨ b.below = 2 := by
  rw [below]
  split
  · exact Or.inl rfl
  · exact Or.inr rfl

/-- The ends of the interval, as multiples of a unit. -/
theorem Owns.bounds (h : b.Owns x) (hm : 0 < b.mantissa) :
    b.mantissa - b.below / 4 ≤ x / 2 ^ b.exponent ∧ x / 2 ^ b.exponent ≤ b.mantissa + 1 / 2 ∧
      (b.mantissa % 2 ≠ 0 →
        b.mantissa - b.below / 4 < x / 2 ^ b.exponent ∧ x / 2 ^ b.exponent < b.mantissa + 1 / 2) := by
  have hscale : (0 : ℚ) < 2 ^ b.exponent := by positivity
  have hquarter : (2 : ℚ) ^ (b.exponent - 2) = 2 ^ b.exponent / 4 := by
    rw [zpow_sub₀ two_ne_zero]
    norm_num
  have hle : b.below ≤ 4 * b.mantissa := by
    rcases b.below_cases with h | h <;> omega
  have hlow : (b.quarters.1 : ℚ) * 2 ^ (b.exponent - 2) = (b.mantissa - b.below / 4) * 2 ^ b.exponent := by
    rw [hquarter, quarters_eq]
    push_cast [Nat.cast_sub hle]
    ring
  have hhigh : (b.quarters.2.2 : ℚ) * 2 ^ (b.exponent - 2) = (b.mantissa + 1 / 2) * 2 ^ b.exponent := by
    rw [hquarter, quarters_eq]
    push_cast
    ring
  rw [Owns, hlow, hhigh] at h
  split at h
  · rename_i heven
    exact ⟨(le_div_iff₀ hscale).mpr h.1, (div_le_iff₀ hscale).mpr h.2, fun hodd => absurd heven hodd⟩
  · have hlow := (lt_div_iff₀ hscale).mpr h.1
    have hhigh := (div_lt_iff₀ hscale).mpr h.2
    exact ⟨hlow.le, hhigh.le, fun _ => ⟨hlow, hhigh⟩⟩

/-- What lies in the interval is rounded to the double. Below a power of two the interval ends where
doubles lie closer together, and what is left of it there belongs to the exponent below. -/
theorem Owns.roundsTo (h : b.Owns x) (hc : IsCanonical b.mantissa b.exponent) (hm : 0 < b.mantissa) :
    RoundsTo x b.mantissa b.exponent := by
  obtain ⟨hlow, hhigh, hodd⟩ := h.bounds hm
  obtain ⟨hlt, hleast, hfull⟩ := hc
  have hmax : (b.mantissa : ℚ) + 1 ≤ 2 ^ 53 := by exact_mod_cast hlt
  have hhalf : (2 : ℚ) ^ (b.exponent - 1) = 2 ^ b.exponent / 2 := zpow_sub_one₀ two_ne_zero _
  have hscale : (0 : ℚ) < 2 ^ b.exponent := by positivity
  obtain ⟨y, hy⟩ : ∃ y, y = x / 2 ^ b.exponent := ⟨_, rfl⟩
  obtain rfl : x = y * 2 ^ b.exponent := by rw [hy, div_mul_cancel₀ x hscale.ne']
  rw [← hy] at hlow hhigh hodd
  have hbelow : (b.below : ℚ) ≤ 2 := by
    rcases b.below_cases with h | h <;> rw [h] <;> norm_num
  have hupper : y * 2 ^ b.exponent < 2 ^ 53 * 2 ^ b.exponent := mul_lt_mul_of_pos_right (by linarith) hscale
  have hnear : IsNearest (y * 2 ^ b.exponent / 2 ^ b.exponent) b.mantissa := by
    rw [← hy]
    refine ⟨abs_le.mpr ⟨by linarith, by linarith⟩, fun hborder => by_contra fun hbit => ?_⟩
    obtain ⟨hlow', hhigh'⟩ := hodd hbit
    have hinside : |y - b.mantissa| < 1 / 2 := abs_lt.mpr ⟨by linarith, by linarith⟩
    exact hinside.ne hborder
  by_cases hpower : b.mantissa = smallestNormal ∧ leastExponent < b.exponent
  · have hone : b.below = 1 := if_pos hpower
    have hmantissa : (b.mantissa : ℚ) = 2 ^ 52 := by
      rw [hpower.1, smallestNormal]
      norm_num
    have hleast' : -1074 < b.exponent := hpower.2
    rw [hone, hmantissa, Nat.cast_one] at hlow
    by_cases hge : (2 : ℚ) ^ 52 ≤ y
    · exact Or.inl ⟨⟨hleast, hupper, Or.inl (mul_le_mul_of_nonneg_right hge hscale.le)⟩, hnear⟩
    · have htwice : y * 2 ^ b.exponent / 2 ^ (b.exponent - 1) = 2 * y := by
        rw [hhalf]
        field_simp
      have hcast : ((2 ^ 53 : ℕ) : ℚ) = 2 * 2 ^ 52 := by norm_num
      refine Or.inr ⟨hpower.1, ⟨by omega, ?_, Or.inl ?_⟩, ?_⟩
      · rw [hhalf]
        have := mul_lt_mul_of_pos_right (not_le.mp hge) hscale
        linarith
      · rw [hhalf]
        have : (2 ^ 51 : ℚ) * 2 ^ b.exponent ≤ y * 2 ^ b.exponent :=
          mul_le_mul_of_nonneg_right (by linarith) hscale.le
        linarith
      · rw [htwice]
        refine ⟨abs_le.mpr ?_, fun _ => by norm_num⟩
        rw [hcast]
        exact ⟨by linarith, by linarith [not_le.mp hge]⟩
  · refine Or.inl ⟨⟨hleast, hupper, ?_⟩, hnear⟩
    by_cases hsmall : b.exponent = -1074
    · exact Or.inr hsmall
    · have hnext : 2 ^ 52 + 1 ≤ b.mantissa := by
        have hne : b.mantissa ≠ 2 ^ 52 := fun heq => hpower ⟨heq, lt_of_le_of_ne hleast (Ne.symm hsmall)⟩
        omega
      have hnext' : (2 : ℚ) ^ 52 + 1 ≤ b.mantissa := by exact_mod_cast hnext
      exact Or.inl (mul_le_mul_of_nonneg_right (by linarith) hscale.le)

/-! ## Decimal grids -/

/-- A unit of the binary and one of the decimal grid, both times the same number so that they are whole. -/
def binaryUnit (b : Binary64) (k : ℤ) : ℕ := Nat.pow 2 (b.exponent - 2).toNat * Nat.pow 10 (-k).toNat
def decimalUnit (b : Binary64) (k : ℤ) : ℕ := Nat.pow 2 (-(b.exponent - 2)).toNat * Nat.pow 10 k.toNat

theorem zpow_eq_div (a : ℚ) (ha : a ≠ 0) (i : ℤ) : a ^ i = a ^ i.toNat / a ^ (-i).toNat := by
  rw [← zpow_natCast, ← zpow_natCast, ← zpow_sub₀ ha]
  congr 1
  omega

theorem exists_units (b : Binary64) (k : ℤ) : ∃ t : ℚ, 0 < t ∧
    (b.binaryUnit k : ℚ) = 2 ^ (b.exponent - 2) * t ∧ (b.decimalUnit k : ℚ) = 10 ^ k * t := by
  refine ⟨2 ^ (-(b.exponent - 2)).toNat * 10 ^ (-k).toNat, by positivity, ?_, ?_⟩
  · rw [binaryUnit, zpow_eq_div 2 two_ne_zero (b.exponent - 2)]
    simp only [Nat.pow_eq]
    push_cast
    field_simp
  · rw [decimalUnit, zpow_eq_div 10 (by norm_num) k]
    simp only [Nat.pow_eq]
    push_cast
    field_simp

section
variable {v : ℕ}

theorem le_grid_iff :
    v * b.binaryUnit k ≤ c * b.decimalUnit k ↔ (v : ℚ) * 2 ^ (b.exponent - 2) ≤ c * 10 ^ k := by
  obtain ⟨t, ht, hbinary, hdecimal⟩ := b.exists_units k
  rw [← Nat.cast_le (α := ℚ), Nat.cast_mul, Nat.cast_mul, hbinary, hdecimal, ← mul_assoc, ← mul_assoc,
    mul_le_mul_iff_left₀ ht]

theorem grid_le_iff :
    c * b.decimalUnit k ≤ v * b.binaryUnit k ↔ (c : ℚ) * 10 ^ k ≤ v * 2 ^ (b.exponent - 2) := by
  obtain ⟨t, ht, hbinary, hdecimal⟩ := b.exists_units k
  rw [← Nat.cast_le (α := ℚ), Nat.cast_mul, Nat.cast_mul, hbinary, hdecimal, ← mul_assoc, ← mul_assoc,
    mul_le_mul_iff_left₀ ht]

end

/-- The test of a number on the grid against the interval. -/
def isOwned (b : Binary64) (k : ℤ) (c : ℕ) : Bool :=
  if b.mantissa % 2 = 0 then
    b.quarters.1 * b.binaryUnit k ≤ c * b.decimalUnit k &&
      c * b.decimalUnit k ≤ b.quarters.2.2 * b.binaryUnit k
  else
    b.quarters.1 * b.binaryUnit k < c * b.decimalUnit k &&
      c * b.decimalUnit k < b.quarters.2.2 * b.binaryUnit k

theorem isOwned_iff : b.isOwned k c = true ↔ b.Owns (c * 10 ^ k) := by
  rw [isOwned, Owns]
  split
  · rw [Bool.and_eq_true, decide_eq_true_eq, decide_eq_true_eq, le_grid_iff, grid_le_iff]
  · rw [Bool.and_eq_true, decide_eq_true_eq, decide_eq_true_eq, ← not_le, ← not_le, le_grid_iff, grid_le_iff,
      not_le, not_le]

/-- The multiple of the decimal unit below the double. -/
def lower (b : Binary64) (k : ℤ) : ℕ := b.quarters.2.1 * b.binaryUnit k / b.decimalUnit k

/-- What a grid gives lies on it and passes the test. -/
theorem exists_of_onGrid? {d : Digits} (h : b.onGrid? tie k = some d) :
    ∃ c, d = ⟨c, k⟩ ∧ b.isOwned k c = true := by
  have heither : ∀ (p : Prop) [Decidable p] {down up}, b.isOwned k down = true →
      b.isOwned k up = true → b.isOwned k (if p then up else down) = true := by
    intro p _ down up hdown hup
    split <;> assumption
  unfold onGrid? at h
  rw [quarters_eq] at h
  dsimp only at h
  split at h
  · rename_i hdown hup
    cases h
    exact ⟨_, rfl, heither _ (Bool.and_eq_true_iff.mp hdown).1 hup⟩
  · rename_i hdown hup
    cases h
    exact ⟨_, rfl, (Bool.and_eq_true_iff.mp hdown).1⟩
  · rename_i hdown hup
    cases h
    exact ⟨_, rfl, hup⟩
  · cases h

/-- A grid gives a decimal if one of the neighbours passes the test. -/
theorem isSome_onGrid? (hpos : 0 < b.lower k)
    (h : b.isOwned k (b.lower k) = true ∨ b.isOwned k (b.lower k + 1) = true) :
    (b.onGrid? tie k).isSome = true := by
  unfold onGrid?
  rw [quarters_eq]
  dsimp only
  split
  · rfl
  · rfl
  · rfl
  · rename_i hdown hup
    rcases h with h | h
    · have hboth : (b.isOwned k (b.lower k) && decide (0 < b.lower k)) = true :=
        Bool.and_eq_true_iff.mpr ⟨h, decide_eq_true hpos⟩
      cases hboth.symm.trans hdown
    · cases h.symm.trans hup

/-! ## Seventeen digits -/

theorem absolute_eq_quarters (b : Binary64) : b.absolute = 4 * b.mantissa * 2 ^ (b.exponent - 2) := by
  rw [absolute, zpow_sub₀ two_ne_zero]
  ring

theorem lower_bounds (b : Binary64) (k : ℤ) :
    (b.lower k : ℚ) * 10 ^ k ≤ b.absolute ∧ b.absolute < (b.lower k + 1 : ℕ) * 10 ^ k := by
  have hpos : 0 < b.decimalUnit k := Nat.mul_pos (Nat.pow_pos (by decide)) (Nat.pow_pos (by decide))
  have habsolute : b.absolute = (b.quarters.2.1 : ℕ) * 2 ^ (b.exponent - 2) := by
    rw [absolute_eq_quarters, quarters_eq]
    push_cast
    rfl
  rw [habsolute, ← not_le, ← grid_le_iff, ← grid_le_iff, not_le]
  refine ⟨Nat.div_mul_le_self _ _, ?_⟩
  rw [mul_comm (b.lower k + 1)]
  exact Nat.lt_mul_div_succ _ hpos

theorem absolute_eq_div (b : Binary64) : b.absolute = b.numerator / b.denominator := by
  rw [absolute, numerator, denominator, zpow_eq_div 2 two_ne_zero b.exponent]
  simp only [Nat.pow_eq]
  push_cast
  ring

/-- The leading digit of the double stands at its magnitude, or above. -/
theorem magnitude_le (hm : 0 < b.mantissa) : (10 : ℚ) ^ (b.magnitude - 1) ≤ b.absolute := by
  have hden := b.denominator_pos
  have hnum : 0 < b.numerator := Nat.mul_pos hm (Nat.pow_pos (by decide))
  have hden' : (0 : ℚ) < b.denominator := by exact_mod_cast hden
  rw [absolute_eq_div, magnitude]
  split
  · rename_i hwhole
    obtain ⟨hdigits, -⟩ := length_toDigits_bounds hwhole
    have hlength : 0 < decimalLength (b.numerator / b.denominator) := Nat.length_toDigits_pos
    have hcast : (10 : ℚ) ^ (decimalLength (b.numerator / b.denominator) - 1) ≤
        (b.numerator / b.denominator : ℕ) := by exact_mod_cast hdigits
    have hplace : (decimalLength (b.numerator / b.denominator) : ℤ) - 1 =
        ((decimalLength (b.numerator / b.denominator) - 1 : ℕ) : ℤ) := by omega
    rw [hplace, zpow_natCast]
    exact hcast.trans Nat.cast_div_le
  · obtain ⟨N, hN⟩ : ∃ N, N = (b.denominator + b.numerator - 1) / b.numerator := ⟨_, rfl⟩
    rw [← hN]
    have hceil : b.denominator ≤ b.numerator * N := by
      have := Nat.lt_mul_div_succ (b.denominator + b.numerator - 1) hnum
      rw [← hN, Nat.mul_succ] at this
      omega
    have hlength : 0 < decimalLength (N - 1) := Nat.length_toDigits_pos
    have hdigits : N - 1 < 10 ^ decimalLength (N - 1) :=
      (Nat.length_toDigits_le_iff (by decide) hlength).mp le_rfl
    have hle : b.denominator ≤ b.numerator * 10 ^ decimalLength (N - 1) :=
      hceil.trans (Nat.mul_le_mul_left _ (by omega))
    have hle' : (b.denominator : ℚ) ≤ b.numerator * 10 ^ decimalLength (N - 1) := by exact_mod_cast hle
    have hplace : 1 - (decimalLength (N - 1) : ℤ) - 1 = -(decimalLength (N - 1) : ℤ) := by ring
    rw [hplace, zpow_neg, zpow_natCast, inv_le_iff_one_le_mul₀ (by positivity), div_mul_eq_mul_div, one_le_div₀ hden']
    exact hle'

theorem owns_of_near (hm : 0 < b.mantissa) (hlow : b.absolute - b.below * 2 ^ (b.exponent - 2) < x)
    (hhigh : x < b.absolute + 2 * 2 ^ (b.exponent - 2)) : b.Owns x := by
  have hle : b.below ≤ 4 * b.mantissa := by
    rcases b.below_cases with h | h <;> omega
  have hlow' : (b.quarters.1 : ℚ) * 2 ^ (b.exponent - 2) < x := by
    rw [absolute_eq_quarters] at hlow
    rw [quarters_eq]
    push_cast [Nat.cast_sub hle]
    linarith
  have hhigh' : x < (b.quarters.2.2 : ℚ) * 2 ^ (b.exponent - 2) := by
    rw [absolute_eq_quarters] at hhigh
    rw [quarters_eq]
    push_cast
    linarith
  rw [Owns]
  split
  · exact ⟨hlow'.le, hhigh'.le⟩
  · exact ⟨hlow', hhigh'⟩

/-- A unit of the seventeenth digit is less than the parts of the interval below and above the double,
so that one of the neighbours lies inside. -/
theorem isSome_seventeenth (hm : 0 < b.mantissa) (hlt : b.mantissa < 2 ^ 53) (tie : Tie) :
    (b.onGrid? tie (b.magnitude - 1 - 16)).isSome = true := by
  obtain ⟨k, hk⟩ : ∃ k, k = b.magnitude - 1 - 16 := ⟨_, rfl⟩
  rw [← hk]
  obtain ⟨hlow, hhigh⟩ := b.lower_bounds k
  have hten : (0 : ℚ) < 10 ^ k := by positivity
  have hquarter : (0 : ℚ) < 2 ^ (b.exponent - 2) := by positivity
  have hleading : 10 ^ 16 * 10 ^ k ≤ b.absolute := by
    have hmagnitude := b.magnitude_le hm
    have hplace : b.magnitude - 1 = ((16 : ℕ) : ℤ) + k := by omega
    rwa [hplace, zpow_add₀ (by norm_num), zpow_natCast] at hmagnitude
  have hfine : (10 : ℚ) ^ k < 2 * (b.below * 2 ^ (b.exponent - 2)) := by
    rw [absolute_eq_quarters] at hleading
    have hsmall : (b.mantissa : ℚ) ≤ 2 ^ 52 * b.below := by
      rw [below]
      split
      · rename_i h
        rw [h.1, smallestNormal]
        norm_num
      · have : (b.mantissa : ℚ) ≤ 2 ^ 53 := by exact_mod_cast hlt.le
        norm_num at this ⊢
        linarith
    have hproduct : (b.mantissa : ℚ) * 2 ^ (b.exponent - 2) ≤ 2 ^ 52 * b.below * 2 ^ (b.exponent - 2) :=
      mul_le_mul_of_nonneg_right hsmall hquarter.le
    have hpos : (0 : ℚ) < b.below * 2 ^ (b.exponent - 2) := by
      refine mul_pos ?_ hquarter
      rcases b.below_cases with h | h <;> rw [h] <;> norm_num
    linarith
  have hbelow : (b.below : ℚ) * 2 ^ (b.exponent - 2) ≤ 2 * 2 ^ (b.exponent - 2) := by
    refine mul_le_mul_of_nonneg_right ?_ hquarter.le
    rcases b.below_cases with h | h <;> rw [h] <;> norm_num
  have hpos : 0 < b.lower k := by
    have hlarge : (10 ^ 16 : ℚ) < (b.lower k + 1 : ℕ) :=
      lt_of_mul_lt_mul_right (hleading.trans_lt hhigh) hten.le
    have hlarge' : 10 ^ 16 < b.lower k + 1 := by exact_mod_cast hlarge
    omega
  refine isSome_onGrid? hpos ?_
  rw [isOwned_iff, isOwned_iff]
  push_cast at hhigh ⊢
  by_cases hnear : b.absolute - b.lower k * 10 ^ k < b.below * 2 ^ (b.exponent - 2)
  · exact Or.inl (owns_of_near hm (by linarith) (by linarith))
  · exact Or.inr (owns_of_near hm (by linarith) (by linarith))

end Binary64

/-! ## The fewest digits -/

/-- The digits that are found stand for a number in the interval of the double. -/
theorem shortest_owns {b : Binary64} (hm : 0 < b.mantissa) (hlt : b.mantissa < 2 ^ 53) (tie : Tie) :
    b.Owns (shortest tie b).number := by
  have hsome :
      ((List.range 17).findSome? fun (n : ℕ) => b.onGrid? tie (b.magnitude - 1 - n)).isSome = true :=
    List.findSome?_isSome_iff.mpr ⟨16, by decide, b.isSome_seventeenth hm hlt tie⟩
  obtain ⟨d, hd⟩ := Option.isSome_iff_exists.mp hsome
  obtain ⟨n, -, hn⟩ := List.exists_of_findSome?_eq_some hd
  obtain ⟨c, rfl, howned⟩ := Binary64.exists_of_onGrid? hn
  rw [shortest, if_neg hm.ne']
  dsimp only
  rw [hd, Option.getD_some, Digits.number_normalize]
  exact Binary64.isOwned_iff.mp howned

end TemplateCost.Decimal
