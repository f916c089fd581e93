import TemplateCost.Proofs.Double.Rounding

/-! # The nearest double

Dropped bits leave two behind, which say on which side of one half the rest is. That is all that rounding
needs: the rounded mantissa is the nearest whole number, and the even one of two. A number is therefore
rounded to the double whose mantissa is nearest to it at the double's exponent; just below a
power of two it is counted at the exponent below.
-/
namespace TemplateCost.Double
open Float.Model Float.Model.UnpackedFloat

/-! ## Nearest whole numbers -/

/-- The nearest whole number, and the even one if there are two. -/
structure IsNearest (x : ℚ) (n : ℕ) : Prop where
  near : |x - n| ≤ 1 / 2
  even : |x - n| = 1 / 2 → n % 2 = 0

theorem IsNearest.unique {x : ℚ} {n k : ℕ} (hn : IsNearest x n) (hk : IsNearest x k) : n = k := by
  wlog hle : n ≤ k generalizing n k
  · exact (this hk hn (by omega)).symm
  by_contra hne
  have hlt : (n : ℚ) + 1 ≤ k := by exact_mod_cast (show n + 1 ≤ k by omega)
  have hlow := (abs_le.mp hn.near).2
  have hhigh := (abs_le.mp hk.near).1
  -- both are one half away from what lies between them, so both are even
  have hhalf : x - n = 1 / 2 := by linarith
  have hhalf' : x - k = -(1 / 2) := by linarith
  have hnext : (k : ℚ) = n + 1 := by linarith
  have heven := hn.even (by rw [hhalf]; norm_num)
  have heven' := hk.even (by rw [hhalf']; norm_num)
  have : k = n + 1 := by exact_mod_cast hnext
  omega

theorem isNearest_of_lt {x : ℚ} {n : ℕ} (hlow : n - 1 / 2 < x) (hhigh : x < n + 1 / 2) : IsNearest x n := by
  have hlt : |x - n| < 1 / 2 := abs_lt.mpr ⟨by linarith, by linarith⟩
  exact ⟨hlt.le, fun h => absurd h hlt.ne⟩

/-! ## Dropped bits -/

/-- What a mantissa and the two bits after it tell of a number. -/
def IsCut (em : ExtendedMantissa) (x : ℚ) : Prop :=
  match em.roundBit, em.stickyBit with
  | false, false => x = em.mantissa
  | false, true => em.mantissa < x ∧ x < em.mantissa + 1 / 2
  | true, false => x = em.mantissa + 1 / 2
  | true, true => em.mantissa + 1 / 2 < x ∧ x < em.mantissa + 1

namespace IsCut
variable {em : ExtendedMantissa} {x : ℚ}

theorem bounds (h : IsCut em x) : em.mantissa ≤ x ∧ x < em.mantissa + 1 := by
  obtain ⟨m, round, sticky⟩ := em
  cases round <;> cases sticky <;> simp only [IsCut] at h ⊢ <;> constructor <;> linarith

theorem exact (m : ℕ) : IsCut (ExtendedMantissa.ofMantissaAndAccuracy m .exact) m := rfl

/-- What is left by a division. -/
theorem fraction (m : ℕ) {n d : ℕ} (h : n < d) :
    IsCut (ExtendedMantissa.ofMantissaAndAccuracy m (accuracyOfFraction n d)) (m + n / d) := by
  have hd : (0 : ℚ) < d := by exact_mod_cast (show 0 < d by omega)
  have hlt : (n : ℚ) / d < 1 := (div_lt_one hd).mpr (by exact_mod_cast h)
  rw [accuracyOfFraction]
  split
  · rename_i hzero
    simp [IsCut, ExtendedMantissa.ofMantissaAndAccuracy, hzero]
  · rename_i hzero
    have hpos : (0 : ℚ) < n / d := div_pos (by exact_mod_cast (show 0 < n by omega)) hd
    cases hcompare : compare (2 * n) d with
    | lt =>
      have hside : (2 : ℚ) * n < d := by exact_mod_cast Nat.compare_eq_lt.mp hcompare
      have hhalf : (n : ℚ) / d < 1 / 2 := by
        rw [div_lt_iff₀ hd]
        linarith
      change (m : ℚ) < m + n / d ∧ (m : ℚ) + n / d < m + 1 / 2
      exact ⟨by linarith, by linarith⟩
    | eq =>
      have hside : (2 : ℚ) * n = d := by exact_mod_cast Nat.compare_eq_eq.mp hcompare
      have hhalf : (n : ℚ) / d = 1 / 2 := by
        rw [div_eq_iff hd.ne']
        linarith
      change (m : ℚ) + n / d = m + 1 / 2
      rw [hhalf]
    | gt =>
      have hside : (d : ℚ) < 2 * n := by exact_mod_cast Nat.compare_eq_gt.mp hcompare
      have hhalf : (1 : ℚ) / 2 < n / d := by
        rw [lt_div_iff₀ hd]
        linarith
      change (m : ℚ) + 1 / 2 < m + n / d ∧ (m : ℚ) + n / d < m + 1
      exact ⟨by linarith, by linarith⟩

theorem shiftRightOne (h : IsCut em x) : IsCut em.shiftRightOne (x / 2) := by
  obtain ⟨m, round, sticky⟩ := em
  have hm : (m : ℚ) = 2 * (m / 2 : ℕ) + (m % 2 : ℕ) := by exact_mod_cast (Nat.div_add_mod m 2).symm
  have hparity := Nat.mod_two_eq_zero_or_one m
  simp only [IsCut, ExtendedMantissa.shiftRightOne] at h ⊢
  rcases hparity with hbit | hbit <;> rw [hbit] at hm ⊢ <;> cases round <;> cases sticky <;>
    simp at h hm ⊢ <;> first | linarith | (constructor <;> linarith)

theorem shiftRight (h : IsCut em x) (k : ℕ) : IsCut (em >>> k) (x / 2 ^ k) := by
  induction k with
  | zero =>
    rw [pow_zero, div_one]
    exact h
  | succ k ih =>
    rw [pow_succ, ← div_div]
    exact ih.shiftRightOne

theorem isNearest (h : IsCut em x) : IsNearest x em.roundedMantissa := by
  obtain ⟨m, round, sticky⟩ := em
  have hup : ((m + 1 : ℕ) : ℚ) = m + 1 := Nat.cast_succ m
  cases round <;> cases sticky <;> simp only [IsCut] at h
  · change IsNearest x m
    exact isNearest_of_lt (by linarith) (by linarith)
  · change IsNearest x m
    exact isNearest_of_lt (by linarith) (by linarith)
  · -- of two neighbours at the same distance, the even one
    change IsNearest x (m + m % 2)
    rcases Nat.mod_two_eq_zero_or_one m with hbit | hbit <;> rw [hbit]
    · exact ⟨by rw [h]; norm_num, fun _ => by omega⟩
    · exact ⟨by rw [h, hup]; norm_num, fun _ => by omega⟩
  · change IsNearest x (m + 1)
    exact isNearest_of_lt (by rw [hup]; linarith) (by rw [hup]; linarith)

end IsCut

/-! ## Exponents -/

/-- A number lies where doubles with 53 bits have the exponent. -/
structure IsAt (x : ℚ) (e : ℤ) : Prop where
  least_le : -1074 ≤ e
  lt : x < 2 ^ 53 * 2 ^ e
  full : 2 ^ 52 * 2 ^ e ≤ x ∨ e = -1074

variable {m n : ℕ} {e k : ℤ} {x z : ℚ} {accuracy : Accuracy}

theorem cutExponent_eq (hcut : IsCut (ExtendedMantissa.ofMantissaAndAccuracy m accuracy) z)
    (he : e ≤ cutExponent m e) (hx : x = z * 2 ^ e) (hk : IsAt x k) : cutExponent m e = k := by
  obtain ⟨hleast, hlt, hfull⟩ := hk
  have hbounds := hcut.bounds
  rw [mantissa_ofMantissaAndAccuracy] at hbounds
  have hscale : (0 : ℚ) < 2 ^ e := by positivity
  have hlog : m < 2 ^ (m.log2 + 1) := Nat.lt_log2_self
  have hpower : ∀ j : ℕ, (2 : ℚ) ^ j * 2 ^ k = 2 ^ ((j : ℤ) + k) := fun j => by
    rw [zpow_add₀ two_ne_zero, zpow_natCast]
  rw [hpower] at hlt hfull
  have hupper : x < 2 ^ (((m.log2 + 1 : ℕ) : ℤ) + e) := by
    have hm : (m : ℚ) + 1 ≤ 2 ^ (m.log2 + 1) := by exact_mod_cast hlog
    rw [hx, zpow_add₀ two_ne_zero, zpow_natCast]
    exact mul_lt_mul_of_pos_right (by linarith) hscale
  have hleft : ((52 : ℕ) : ℤ) + k < ((m.log2 + 1 : ℕ) : ℤ) + e ∨ k = -1074 :=
    hfull.imp_left fun h => (zpow_lt_zpow_iff_right₀ one_lt_two).mp (h.trans_lt hupper)
  rw [cutExponent] at he ⊢
  rcases Nat.eq_zero_or_pos m with rfl | hm
  · rw [Nat.log2_zero] at he hleft ⊢
    omega
  · have hlower : 2 ^ ((m.log2 : ℤ) + e) ≤ x := by
      have hm : (2 : ℚ) ^ m.log2 ≤ m := by exact_mod_cast Nat.log2_self_le hm.ne'
      rw [hx, zpow_add₀ two_ne_zero, zpow_natCast]
      exact mul_le_mul_of_nonneg_right (by linarith) hscale.le
    have hright : (m.log2 : ℤ) + e < ((53 : ℕ) : ℤ) + k :=
      (zpow_lt_zpow_iff_right₀ one_lt_two).mp (hlower.trans_lt hlt)
    omega

/-! ## Rounding -/

theorem roundedMantissa_eq (hcut : IsCut (ExtendedMantissa.ofMantissaAndAccuracy m accuracy) z)
    (he : e ≤ cutExponent m e) (hx : x = z * 2 ^ e) (hk : IsAt x k) (hn : IsNearest (x / 2 ^ k) n) :
    (shiftToTargetExponent Format.binary64 m e accuracy).1.roundedMantissa = n := by
  have hexponent := cutExponent_eq hcut he hx hk
  have hshifted := hcut.shiftRight (cutExponent m e - e).toNat
  have hscaled : z / 2 ^ (cutExponent m e - e).toNat = x / 2 ^ k := by
    rw [hx, ← zpow_natCast, Int.toNat_of_nonneg (by omega), hexponent, zpow_sub₀ two_ne_zero,
      div_div_eq_mul_div]
  rw [hscaled] at hshifted
  rw [shiftToTargetExponent, targetExponent_eq, shiftToExponent]
  exact hshifted.isNearest.unique hn

/-- The numbers that are rounded to a double: its mantissa is the nearest at its exponent, or, just
below a power of two, twice its mantissa is the nearest at the exponent below. -/
def RoundsTo (x : ℚ) (n : ℕ) (k : ℤ) : Prop :=
  (IsAt x k ∧ IsNearest (x / 2 ^ k) n) ∨
    (n = 2 ^ 52 ∧ IsAt x (k - 1) ∧ IsNearest (x / 2 ^ (k - 1)) (2 ^ 53))

/-- A number that is a double already is rounded to it. -/
theorem RoundsTo.self (hc : IsCanonical n k) : RoundsTo (n * 2 ^ k) n k := by
  have hscale : (0 : ℚ) < 2 ^ k := by positivity
  have hlt : (n : ℚ) < 2 ^ 53 := by exact_mod_cast hc.lt
  refine Or.inl ⟨⟨hc.least_le, mul_lt_mul_of_pos_right hlt hscale, hc.full.imp_left fun hfull => ?_⟩, ?_⟩
  · have hge : (2 : ℚ) ^ 52 ≤ n := by exact_mod_cast hfull
    exact mul_le_mul_of_nonneg_right hge hscale.le
  · rw [mul_div_cancel_right₀ _ hscale.ne']
    exact isNearest_of_lt (by linarith) (by linarith)

theorem roundWithAccuracy_of_roundsTo (hcut : IsCut (ExtendedMantissa.ofMantissaAndAccuracy m accuracy) z)
    (he : e ≤ cutExponent m e) (hround : RoundsTo (z * 2 ^ e) n k) (hlt : n < 2 ^ 53) (s : Sign)
    (hn : 0 < n) :
    roundWithAccuracy Format.binary64 s m e accuracy = .finite s n k hn := by
  rcases hround with ⟨hk, hnear⟩ | ⟨rfl, hk, hnear⟩
  · have hexponent := cutExponent_eq hcut he rfl hk
    rw [roundWithAccuracy_of_lt hn hlt (roundedMantissa_eq hcut he rfl hk hnear), max_eq_right he,
      hexponent]
  · have hexponent := cutExponent_eq hcut he rfl hk
    have hcarry := roundedMantissa_eq hcut he rfl hk hnear
    have hraise : max e (cutExponent m e) + 1 = k := by omega
    simp only [roundWithAccuracy_of_carry hcarry, hraise]

end TemplateCost.Double
