import TemplateCost.Decimal.Scan
import TemplateCost.Proofs.Double.Exact
import TemplateCost.Proofs.Double.Nearest
import TemplateCost.Proofs.Double.Reciprocal
import TemplateCost.Proofs.Double.Whole

/-! # Decimals as doubles

Products and quotients are rounded once from the exact number. A significand with a power of ten is
converted by one of them, be it that both are doubles already or that they are whole numbers of any
size, so that it is rounded once, too.
-/
namespace TemplateCost.Double
open Float.Model Float.Model.UnpackedFloat Decimal

variable {n : ℕ} {k : ℤ}

/-! ## Products and quotients -/

section
variable {m₁ m₂ : ℕ} {e₁ e₂ : ℤ}

theorem mul_of_roundsTo (h₁ : 0 < m₁) (h₂ : 0 < m₂)
    (hcut : e₁ + e₂ ≤ cutExponent (m₁ * m₂) (e₁ + e₂))
    (hround : RoundsTo (m₁ * 2 ^ e₁ * (m₂ * 2 ^ e₂)) n k) (hlt : n < 2 ^ 53) (hn : 0 < n) :
    UnpackedFloat.mul Format.binary64 (.finite .positive m₁ e₁ h₁) (.finite .positive m₂ e₂ h₂) =
      .finite .positive n k hn := by
  have hproduct : ((m₁ * m₂ : ℕ) : ℚ) * 2 ^ (e₁ + e₂) = m₁ * 2 ^ e₁ * (m₂ * 2 ^ e₂) := by
    rw [zpow_add₀ two_ne_zero]
    push_cast
    ring
  rw [← hproduct] at hround
  exact roundWithAccuracy_of_roundsTo (IsCut.exact _) hcut hround hlt .positive hn

/-- A quotient is formed with 53 bits at least, or down to the least exponent. -/
theorem exists_divCore (e₁ e₂ : ℤ) (h₁ : 0 < m₁) (h₂ : 0 < m₂) :
    ∃ q t accuracy z, divCore Format.binary64 m₁ e₁ m₂ e₂ = (q, t, accuracy) ∧
      IsCut (ExtendedMantissa.ofMantissaAndAccuracy q accuracy) z ∧
      z * 2 ^ t = m₁ * 2 ^ e₁ / (m₂ * 2 ^ e₂) ∧ t ≤ cutExponent q t := by
  have hbits : Format.binary64.mantissaBits = 53 := rfl
  have hmin : Format.binary64.minExponent = -1074 := by decide
  obtain ⟨t, ht⟩ : ∃ t, t = min (e₁ - e₂) (max ((m₁.log2 : ℤ) - m₂.log2 + e₁ - e₂ - 53) (-1074)) :=
    ⟨_, rfl⟩
  have htarget : min (e₁ - e₂) (Format.binary64.targetExponent
      (totalExponent m₁ e₁ - totalExponent m₂ e₂)) = t := by
    rw [Format.targetExponent, totalExponent, totalExponent, hbits, hmin, ht]
    omega
  obtain ⟨s, hs⟩ : ∃ s, s = (e₁ - e₂ - t).toNat := ⟨_, rfl⟩
  have hd : (m₂ : ℚ) ≠ 0 := by exact_mod_cast h₂.ne'
  refine ⟨m₁ * 2 ^ s / m₂, t, accuracyOfFraction (m₁ * 2 ^ s % m₂) m₂, _, ?_,
    IsCut.fraction _ (Nat.mod_lt _ h₂), ?_, ?_⟩
  · rw [divCore, htarget, ← hs, Nat.shiftLeft_eq]
  · have hmod : ((m₁ * 2 ^ s / m₂ : ℕ) : ℚ) + (m₁ * 2 ^ s % m₂ : ℕ) / m₂ = m₁ * 2 ^ s / m₂ := by
      have hdivision : ((m₂ * (m₁ * 2 ^ s / m₂) + m₁ * 2 ^ s % m₂ : ℕ) : ℚ) = (m₁ * 2 ^ s : ℕ) := by
        rw [Nat.div_add_mod]
      push_cast at hdivision
      field_simp
      linarith
    have hexponent : e₁ = s + t + e₂ := by omega
    rw [hmod, hexponent, zpow_add₀ two_ne_zero, zpow_add₀ two_ne_zero, zpow_natCast]
    field_simp
  · -- above the least exponent the quotient has 53 bits
    by_cases hleast : t ≤ -1074
    · rw [cutExponent]
      omega
    · have hlog₁ := Nat.log2_self_le h₁.ne'
      have hlog₂ : m₂ < 2 ^ (m₂.log2 + 1) := Nat.lt_log2_self
      have hbig : 2 ^ 52 ≤ m₁ * 2 ^ s / m₂ := by
        rw [Nat.le_div_iff_mul_le h₂]
        calc 2 ^ 52 * m₂ ≤ 2 ^ 52 * 2 ^ (m₂.log2 + 1) := Nat.mul_le_mul_left _ hlog₂.le
          _ = 2 ^ (52 + (m₂.log2 + 1)) := (pow_add ..).symm
          _ ≤ 2 ^ (m₁.log2 + s) := Nat.pow_le_pow_right (by decide) (by omega)
          _ = 2 ^ m₁.log2 * 2 ^ s := pow_add ..
          _ ≤ m₁ * 2 ^ s := Nat.mul_le_mul_right _ hlog₁
      have hlog := (Nat.le_log2 (by omega)).mpr hbig
      rw [cutExponent]
      omega

theorem div_of_roundsTo (h₁ : 0 < m₁) (h₂ : 0 < m₂)
    (hround : RoundsTo (m₁ * 2 ^ e₁ / (m₂ * 2 ^ e₂)) n k) (hlt : n < 2 ^ 53) (hn : 0 < n) :
    UnpackedFloat.div Format.binary64 (.finite .positive m₁ e₁ h₁) (.finite .positive m₂ e₂ h₂) =
      .finite .positive n k hn := by
  obtain ⟨q, t, accuracy, z, hdiv, hcut, hz, ht⟩ := exists_divCore e₁ e₂ h₁ h₂
  rw [← hz] at hround
  rw [UnpackedFloat.div, hdiv]
  exact roundWithAccuracy_of_roundsTo hcut ht hround hlt .positive hn

end

/-! ## Exact doubles -/

/-- The double stands for the positive number, with all bits of its mantissa in use. -/
def IsExactly (f : Float) (x : ℚ) : Prop :=
  ∃ m e hm, parts f = .finite .positive m e hm ∧ 2 ^ 52 ≤ m ∧ (m : ℚ) * 2 ^ e = x

section
variable {f g : Float} {x y : ℚ} (hc : IsCanonical n k) (hk : k ≤ 971) (hn : 0 < n)
include hc hk

theorem IsExactly.parts_mul (hf : IsExactly f x) (hg : IsExactly g y) (hround : RoundsTo (x * y) n k) :
    parts (f * g) = .finite .positive n k hn := by
  obtain ⟨m₁, e₁, h₁, hf, hm₁, rfl⟩ := hf
  obtain ⟨m₂, e₂, h₂, hg, hm₂, rfl⟩ := hg
  have hcut : e₁ + e₂ ≤ cutExponent (m₁ * m₂) (e₁ + e₂) := by
    have hbig : 2 ^ 52 * 2 ^ 52 ≤ m₁ * m₂ := Nat.mul_le_mul hm₁ hm₂
    rw [← pow_add] at hbig
    have hlog := (Nat.le_log2 (Nat.mul_pos h₁ h₂).ne').mpr hbig
    rw [cutExponent]
    omega
  rw [Double.parts_mul, hf, hg, mul_of_roundsTo h₁ h₂ hcut hround hc.lt hn]
  exact unpack_pack_finite hc hk .positive hn

theorem IsExactly.parts_div (hf : IsExactly f x) (hg : IsExactly g y) (hround : RoundsTo (x / y) n k) :
    parts (f / g) = .finite .positive n k hn := by
  obtain ⟨m₁, e₁, h₁, hf, -, rfl⟩ := hf
  obtain ⟨m₂, e₂, h₂, hg, -, rfl⟩ := hg
  rw [Double.parts_div, hf, hg, div_of_roundsTo h₁ h₂ hround hc.lt hn]
  exact unpack_pack_finite hc hk .positive hn

end

/-! ## Whole numbers and powers of ten -/

theorem whole_value {c : ℕ} (hc : 0 < c) (hlt : c < 2 ^ 53) :
    ((c * 2 ^ (52 - c.log2) : ℕ) : ℚ) * 2 ^ ((c.log2 : ℤ) - 52) = c := by
  have hlog : c.log2 < 53 := (Nat.log2_lt hc.ne').mpr hlt
  have hone : (2 : ℚ) ^ (52 - c.log2) * 2 ^ ((c.log2 : ℤ) - 52) = 1 := by
    have hsum : ((52 - c.log2 : ℕ) : ℤ) + (c.log2 - 52) = 0 := by omega
    rw [← zpow_natCast, ← zpow_add₀ two_ne_zero, hsum, zpow_zero]
  push_cast
  rw [mul_assoc, hone, mul_one]

theorem full_whole {c : ℕ} (hc : 0 < c) (hlt : c < 2 ^ 53) : 2 ^ 52 ≤ c * 2 ^ (52 - c.log2) := by
  have hlog : c.log2 < 53 := (Nat.log2_lt hc.ne').mpr hlt
  calc 2 ^ 52 = 2 ^ (c.log2 + (52 - c.log2)) := by rw [Nat.add_sub_cancel' (by omega)]
    _ = 2 ^ c.log2 * 2 ^ (52 - c.log2) := pow_add ..
    _ ≤ c * 2 ^ (52 - c.log2) := Nat.mul_le_mul_right _ (Nat.log2_self_le hc.ne')

theorem isExactly_toFloat {c : ℕ} (hc : 0 < c) (hlt : c < 2 ^ 53) : IsExactly c.toUInt64.toFloat c :=
  ⟨_, _, Nat.mul_pos hc (Nat.two_pow_pos _), parts_toFloat hc hlt, full_whole hc hlt, whole_value hc hlt⟩

/-- The powers of ten that are doubles, each a power of five with all bits of its mantissa in use. -/
theorem ofFloat?_powerOfTen : ∀ i (h : i < Float.exactlyRepresentablePowersOfTen.size),
    Binary64.ofFloat? Float.exactlyRepresentablePowersOfTen[i] =
      some ⟨false, 5 ^ i * 2 ^ (52 - (5 ^ i).log2), i + ((5 ^ i).log2 - 52)⟩ := by
  decide

theorem isExactly_powerOfTen {i : ℕ} (h : i < Float.exactlyRepresentablePowersOfTen.size) :
    IsExactly Float.exactlyRepresentablePowersOfTen[i] (10 ^ i) := by
  have hpos : 0 < 5 ^ i := by positivity
  have hlt : 5 ^ i < 2 ^ 53 := (Nat.pow_le_pow_right (by decide) (Nat.le_of_lt_succ h)).trans_lt (by decide)
  obtain ⟨s, hs, hparts⟩ :=
    parts_of_ofFloat? (ofFloat?_powerOfTen i h) (Nat.mul_pos hpos (Nat.two_pow_pos _))
  have hten : (10 : ℚ) ^ i = 2 ^ i * (5 ^ i : ℕ) := by
    push_cast
    rw [← mul_pow]
    norm_num
  cases s with
  | negative => cases hs
  | positive =>
    refine ⟨_, _, _, hparts, full_whole hpos hlt, ?_⟩
    rw [zpow_add₀ two_ne_zero, mul_left_comm, whole_value hpos hlt, zpow_natCast, hten]

/-! ## Significands with a power of ten -/

/-- What is rounded to a positive finite double is neither too small nor too large for powers of ten
to be formed. -/
theorem RoundsTo.bounds {x : ℚ} (h : RoundsTo x n k) (hn : 0 < n) (hk : k ≤ 971) :
    2 ^ (-1075 : ℤ) ≤ x ∧ x < 2 ^ 1024 := by
  -- at its exponent, the number is at least one half
  obtain ⟨j, r, hj, hjk, hr, hnear⟩ : ∃ j r, IsAt x j ∧ j ≤ k ∧ 0 < r ∧ IsNearest (x / 2 ^ j) r := by
    rcases h with ⟨hat, hnear⟩ | ⟨-, hat, hnear⟩
    · exact ⟨k, n, hat, le_rfl, hn, hnear⟩
    · exact ⟨k - 1, 2 ^ 53, hat, by omega, by decide, hnear⟩
  have hscale : (0 : ℚ) < 2 ^ j := by positivity
  have hone : (1 : ℚ) ≤ r := by exact_mod_cast hr
  have hlow := (abs_le.mp hnear.near).1
  constructor
  · have hhalf : (1 : ℚ) / 2 ≤ x / 2 ^ j := by linarith
    rw [le_div_iff₀ hscale] at hhalf
    have hleast := hj.least_le
    calc (2 : ℚ) ^ (-1075 : ℤ) ≤ 2 ^ (j - 1) := zpow_le_zpow_right₀ one_le_two (by omega)
      _ = 1 / 2 * 2 ^ j := by rw [zpow_sub_one₀ two_ne_zero]; ring
      _ ≤ x := hhalf
  · calc x < 2 ^ 53 * 2 ^ j := hj.lt
      _ ≤ 2 ^ 53 * 2 ^ (971 : ℤ) := by gcongr <;> [exact one_le_two; omega]
      _ = 2 ^ 1024 := by rw [← zpow_natCast, ← zpow_natCast, ← zpow_add₀ two_ne_zero]; rfl

variable {c : ℕ} {i : ℤ}

theorem RoundsTo.significand_pos (h : RoundsTo (c * 10 ^ i) n k) (hn : 0 < n) (hk : k ≤ 971) : 0 < c := by
  obtain ⟨hlow, -⟩ := h.bounds hn hk
  have hleast : (0 : ℚ) < 2 ^ (-1075 : ℤ) := by positivity
  rw [Nat.pos_iff_ne_zero]
  rintro rfl
  rw [Nat.cast_zero, zero_mul] at hlow
  exact absurd (hleast.trans_le hlow) (lt_irrefl 0)

/-- Whole numbers of any size, where one of them is no double. -/
theorem ofScientific_of_roundsTo (hc : 0 < c) (hn : 0 < n) (hlt : n < 2 ^ 53)
    (hround : RoundsTo (c * 10 ^ i) n k) (hlow : -(2048 + c.log2 : ℤ) ≤ i) (hhigh : i ≤ 2048) :
    UnpackedFloat.ofScientific Format.binary64 c i = .finite .positive n k hn := by
  have hbits : (2 : ℤ) ^ Format.binary64.exponentBits = 2048 := by decide
  rw [UnpackedFloat.ofScientific, dif_neg hc.ne', if_neg (by omega), if_neg (by omega)]
  split
  · rename_i hi
    have hmantissa : c <<< Format.binary64.mantissaBits = c * 2 ^ 53 := Nat.shiftLeft_eq c 53
    have hpower : 0 < c * 2 ^ 53 * 10 ^ i.toNat := by positivity
    have hproduct : (c : ℚ) * 10 ^ i =
        ((c * 2 ^ 53 : ℕ) : ℚ) * 2 ^ (-53 : ℤ) * ((10 ^ i.toNat : ℕ) * 2 ^ (0 : ℤ)) := by
      rw [show i = (i.toNat : ℤ) by omega, zpow_natCast, Int.toNat_natCast]
      push_cast
      norm_num
      ring
    have hcut : (-53 : ℤ) + 0 ≤ cutExponent (c * 2 ^ 53 * 10 ^ i.toNat) (-53 + 0) := by
      have hle : 2 ^ 53 ≤ c * 2 ^ 53 * 10 ^ i.toNat := by
        rw [mul_right_comm]
        exact Nat.le_mul_of_pos_left _ (by positivity)
      have hlog := (Nat.le_log2 hpower.ne').mpr hle
      rw [cutExponent]
      omega
    rw [hproduct] at hround
    simp only [hmantissa]
    exact mul_of_roundsTo _ _ hcut hround hlt hn
  · rename_i hi
    have hquotient : (c : ℚ) * 10 ^ i =
        (c : ℚ) * 2 ^ (0 : ℤ) / ((10 ^ (-i).toNat : ℕ) * 2 ^ (0 : ℤ)) := by
      rw [show i = -((-i).toNat : ℤ) by omega, zpow_neg, zpow_natCast, neg_neg, Int.toNat_natCast]
      push_cast
      rw [mul_one, mul_one]
      rfl
    rw [hquotient] at hround
    exact div_of_roundsTo _ _ hround hlt hn

theorem parts_ofScientific (hcanonical : IsCanonical n k) (hk : k ≤ 971) (hn : 0 < n) (hc : 0 < c)
    (hround : RoundsTo (c * 10 ^ i) n k) (hlow : -(2048 + c.log2 : ℤ) ≤ i) (hhigh : i ≤ 2048) :
    parts (Float.ofScientific c (i < 0) i.natAbs) = .finite .positive n k hn := by
  by_cases hfast : c < 2 ^ 53 ∧ i.natAbs ≤ 22
  · have hpower : i.natAbs < Float.exactlyRepresentablePowersOfTen.size := Nat.lt_succ_of_le hfast.2
    have hsignificand := isExactly_toFloat hc hfast.1
    have hscale := isExactly_powerOfTen hpower
    rw [Float.ofScientific, dif_pos hfast]
    dsimp only
    by_cases hneg : i < 0
    · have hquotient : (c : ℚ) * 10 ^ i = c / 10 ^ i.natAbs := by
        rw [show i = -(i.natAbs : ℤ) by omega, zpow_neg, zpow_natCast, Int.natAbs_neg, Int.natAbs_natCast]
        rfl
      rw [hquotient] at hround
      rw [if_pos (decide_eq_true hneg)]
      exact hsignificand.parts_div hcanonical hk hn hscale hround
    · have hproduct : (c : ℚ) * 10 ^ i = c * 10 ^ i.natAbs := by
        rw [show i = (i.natAbs : ℤ) by omega, zpow_natCast, Int.natAbs_natCast]
      rw [hproduct] at hround
      rw [if_neg (by simpa using hneg)]
      exact hsignificand.parts_mul hcanonical hk hn hscale hround
  · have hexponent :
        (if decide (i < 0) = true then Int.negOfNat i.natAbs else Int.ofNat i.natAbs) = i := by
      simp only [decide_eq_true_eq, Int.negOfNat_eq, Int.ofNat_eq_natCast]
      split <;> omega
    have hparts : parts (Float.ofScientific c (i < 0) i.natAbs) =
        (Float.Model.pack (UnpackedFloat.ofScientific Format.binary64 c i)).unpack := by
      rw [Float.ofScientific, dif_neg hfast]
      dsimp only
      rw [hexponent]
      rfl
    rw [hparts, ofScientific_of_roundsTo hc hn hcanonical.lt hround hlow hhigh]
    exact unpack_pack_finite hcanonical hk .positive hn

theorem isExactly_ofNat (hc : 0 < c) (hlt : c < 2 ^ 53) : IsExactly (Float.ofNat c) c := by
  have hlog : c.log2 < 53 := (Nat.log2_lt hc.ne').mpr hlt
  have hround := RoundsTo.self (isCanonical_whole hc hlt)
  rw [whole_value hc hlt, ← mul_one (c : ℚ), ← zpow_zero (10 : ℚ)] at hround
  have hparts := parts_ofScientific (isCanonical_whole hc hlt) (by omega)
    (Nat.mul_pos hc (Nat.two_pow_pos _)) hc hround (by omega) (by decide)
  exact ⟨_, _, _, hparts, full_whole hc hlt, whole_value hc hlt⟩

theorem isExactly_ofScientific_one {j : ℕ} (hj : j ≤ 22) :
    IsExactly (Float.ofScientific 1 false j) (10 ^ j) := by
  have hfast : 1 < 2 ^ 53 ∧ j ≤ 22 := ⟨by decide, hj⟩
  have hpower := isExactly_powerOfTen (Nat.lt_succ_of_le hj)
  have hone := isExactly_toFloat (c := 1) (by decide) (by decide)
  obtain ⟨m, e, hm, hparts, hfull, hvalue⟩ := hpower
  obtain ⟨hcanonical, he⟩ := isCanonical_of_parts hparts
  have hround := RoundsTo.self hcanonical
  rw [hvalue, ← one_mul (10 ^ j : ℚ), ← Nat.cast_one] at hround
  rw [Float.ofScientific, dif_pos hfast]
  exact ⟨m, e, hm, hone.parts_mul hcanonical he hm ⟨m, e, hm, hparts, hfull, hvalue⟩ hround, hfull, hvalue⟩

/-! ## Decimals -/

theorem length_toDigits_bounds {c : ℕ} (hc : 0 < c) :
    10 ^ ((Nat.toDigits 10 c).length - 1) ≤ c ∧ c < 10 ^ (Nat.toDigits 10 c).length := by
  have hlength : 0 < (Nat.toDigits 10 c).length := Nat.length_toDigits_pos
  refine ⟨?_, (Nat.length_toDigits_le_iff (by decide) hlength).mp le_rfl⟩
  rcases Nat.eq_zero_or_pos ((Nat.toDigits 10 c).length - 1) with hzero | hpos
  · rw [hzero]
    exact hc
  · refine Nat.le_of_not_lt fun hlt => ?_
    have hle := (Nat.length_toDigits_le_iff (by decide) hpos).mpr hlt
    omega

theorem ten_zpow_lt_least : (10 : ℚ) ^ (-324 : ℤ) < 2 ^ (-1075 : ℤ) := by
  have hnat : 2 ^ 1075 < 10 ^ 324 := by decide +kernel
  have hlt : (2 : ℚ) ^ 1075 < 10 ^ 324 := by exact_mod_cast hnat
  rw [zpow_neg, zpow_neg]
  exact inv_strictAnti₀ (by positivity) hlt

theorem greatest_lt_ten_zpow : (2 : ℚ) ^ 1024 < 10 ^ (309 : ℤ) := by
  have hnat : 2 ^ 1024 < 10 ^ 309 := by decide +kernel
  have hlt : (2 : ℚ) ^ 1024 < 10 ^ 309 := by exact_mod_cast hnat
  exact hlt

/-- A decimal is read as the double that it is rounded to. -/
theorem parts_nearest (hcanonical : IsCanonical n k) (hk : k ≤ 971) (hn : 0 < n)
    (hround : RoundsTo (c * 10 ^ i) n k) : parts (nearest c i) = .finite .positive n k hn := by
  obtain ⟨hlow, hhigh⟩ := hround.bounds hn hk
  have hscale : (0 : ℚ) < 10 ^ i := by positivity
  have hc := hround.significand_pos hn hk
  obtain ⟨hdigits, hdigits'⟩ := length_toDigits_bounds hc
  have hlength : 0 < (Nat.toDigits 10 c).length := Nat.length_toDigits_pos
  generalize hL : (Nat.toDigits 10 c).length = L at hdigits hdigits' hlength
  have hleast : -324 < i + L := by
    have hupper : (c : ℚ) * 10 ^ i < 10 ^ (i + L) := by
      rw [zpow_add₀ (by norm_num), zpow_natCast, mul_comm]
      exact mul_lt_mul_of_pos_left (by exact_mod_cast hdigits') hscale
    have hlt : (10 : ℚ) ^ (-324 : ℤ) < 10 ^ (i + L) := (ten_zpow_lt_least.trans_le hlow).trans hupper
    exact (zpow_lt_zpow_iff_right₀ (by norm_num)).mp hlt
  have hgreatest : i + L - 1 < 309 := by
    have hlower : (10 : ℚ) ^ (i + L - 1) ≤ c * 10 ^ i := by
      have hplace : i + (L : ℤ) - 1 = i + ((L - 1 : ℕ) : ℤ) := by omega
      rw [hplace, zpow_add₀ (by norm_num), zpow_natCast, mul_comm]
      exact mul_le_mul_of_nonneg_right (by exact_mod_cast hdigits) hscale.le
    have hlt : (10 : ℚ) ^ (i + L - 1) < 10 ^ (309 : ℤ) :=
      (hlower.trans_lt hhigh).trans greatest_lt_ten_zpow
    exact (zpow_lt_zpow_iff_right₀ (by norm_num)).mp hlt
  have hlog : L - 1 ≤ c.log2 := by
    rw [Nat.le_log2 hc.ne']
    exact (Nat.pow_le_pow_left (by decide) _).trans hdigits
  rw [nearest, hL, if_neg hc.ne', if_neg (by omega), if_neg (by omega)]
  exact parts_ofScientific hcanonical hk hn hc hround (by omega) (by omega)

end TemplateCost.Double
