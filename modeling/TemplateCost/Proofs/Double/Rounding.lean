import TemplateCost.Proofs.Double.Parts

/-! # Rounding to a double

A number is rounded by dropping bits until at most 53 are left and the exponent is not below the
least. Rounding may carry into one more bit, which raises the exponent by one.
-/
namespace TemplateCost.Double
open Float.Model Float.Model.UnpackedFloat

/-- The exponent that is left when a mantissa is cut to 53 bits. -/
def cutExponent (m : ℕ) (e : ℤ) : ℤ := max (m.log2 + e - 52) (-1074)

theorem targetExponent_eq (m : ℕ) (e : ℤ) :
    Format.binary64.targetExponent (totalExponent m e) = cutExponent m e := by
  have hbits : Format.binary64.mantissaBits = 53 := rfl
  have hmin : Format.binary64.minExponent = -1074 := by decide
  rw [Format.targetExponent, totalExponent, cutExponent, hbits, hmin]
  omega

theorem mantissa_shiftRight (em : ExtendedMantissa) (k : ℕ) :
    (em >>> k).mantissa = em.mantissa / 2 ^ k := by
  induction k with
  | zero => exact (Nat.div_one _).symm
  | succ k ih =>
    have hstep : (em >>> (k + 1)).mantissa = (em >>> k).mantissa / 2 := rfl
    rw [hstep, ih, Nat.div_div_eq_div_mul, pow_succ]

theorem mantissa_ofMantissaAndAccuracy (m : ℕ) (accuracy : Accuracy) :
    (ExtendedMantissa.ofMantissaAndAccuracy m accuracy).mantissa = m := by
  cases accuracy with
  | exact => rfl
  | inexact o => cases o <;> rfl

theorem roundToNearestEven_bounds (accuracy : Accuracy) (m : ℕ) :
    m ≤ accuracy.roundToNearestEven m ∧ accuracy.roundToNearestEven m ≤ m + 1 := by
  cases accuracy with
  | exact => exact ⟨le_refl _, Nat.le_succ m⟩
  | inexact side =>
    cases side with
    | lt => exact ⟨le_refl _, Nat.le_succ m⟩
    | gt => exact ⟨Nat.le_succ m, le_refl _⟩
    | eq =>
      rw [Accuracy.roundToNearestEven]
      omega

theorem shiftToTargetExponent_mantissa (m : ℕ) (e : ℤ) (accuracy : Accuracy) :
    (shiftToTargetExponent Format.binary64 m e accuracy).1.mantissa =
      m / 2 ^ (cutExponent m e - e).toNat := by
  rw [shiftToTargetExponent, targetExponent_eq, shiftToExponent, mantissa_shiftRight,
    mantissa_ofMantissaAndAccuracy]

theorem shiftToTargetExponent_exponent (m : ℕ) (e : ℤ) (accuracy : Accuracy) :
    (shiftToTargetExponent Format.binary64 m e accuracy).2 = max e (cutExponent m e) := by
  rw [shiftToTargetExponent, targetExponent_eq, shiftToExponent]
  omega

/-- Cutting leaves at most 53 bits, and all of them unless the exponent is the least. -/
theorem isCanonical_cut {m : ℕ} {e : ℤ} (hm : 0 < m) (he : e ≤ cutExponent m e) :
    IsCanonical (m / 2 ^ (cutExponent m e - e).toNat) (cutExponent m e) := by
  have hlog := Nat.log2_self_le hm.ne'
  have hlog' : m < 2 ^ (m.log2 + 1) := Nat.lt_log2_self
  generalize hk : (cutExponent m e - e).toNat = k
  rw [cutExponent] at hk he ⊢
  refine ⟨?_, le_max_right _ _, ?_⟩
  · rw [Nat.div_lt_iff_lt_mul (Nat.two_pow_pos k), ← pow_add]
    exact hlog'.trans_le (Nat.pow_le_pow_right (by decide) (by omega))
  · by_cases hfull : m.log2 + e - 52 ≤ -1074
    · exact Or.inr (max_eq_right hfull)
    · left
      rw [Nat.le_div_iff_mul_le (Nat.two_pow_pos k), ← pow_add]
      exact (Nat.pow_le_pow_right (by decide) (by omega)).trans hlog

/-- The rounded mantissa is cut once more, exactly, since a carry can have given it one bit too many. -/
theorem roundWithAccuracy_of_rounded {s : Sign} {m r n : ℕ} {e d : ℤ} {accuracy : Accuracy}
    (hrounded : (shiftToTargetExponent Format.binary64 m e accuracy).1.roundedMantissa = r)
    (hmantissa : r / 2 ^ (cutExponent r (max e (cutExponent m e)) - max e (cutExponent m e)).toNat = n)
    (hexponent : max (max e (cutExponent m e)) (cutExponent r (max e (cutExponent m e))) = d)
    (hn : 0 < n) : roundWithAccuracy Format.binary64 s m e accuracy = .finite s n d hn := by
  rw [roundWithAccuracy]
  dsimp only
  simp only [hrounded, shiftToTargetExponent_exponent, shiftToTargetExponent_mantissa, hmantissa,
    hexponent, hn.ne', dite_false]

theorem roundWithAccuracy_of_lt {s : Sign} {m : ℕ} {e : ℤ} {accuracy : Accuracy} {r : ℕ} (hr : 0 < r)
    (hlt : r < 2 ^ 53)
    (hrounded : (shiftToTargetExponent Format.binary64 m e accuracy).1.roundedMantissa = r) :
    roundWithAccuracy Format.binary64 s m e accuracy = .finite s r (max e (cutExponent m e)) hr := by
  have hlog : r.log2 < 53 := (Nat.log2_lt hr.ne').mpr hlt
  have hkeep : cutExponent r (max e (cutExponent m e)) ≤ max e (cutExponent m e) := by
    rw [cutExponent, cutExponent]
    omega
  refine roundWithAccuracy_of_rounded hrounded ?_ (max_eq_left hkeep) hr
  rw [Int.toNat_eq_zero.mpr (by omega), pow_zero, Nat.div_one]

theorem roundWithAccuracy_of_carry {s : Sign} {m : ℕ} {e : ℤ} {accuracy : Accuracy}
    (hrounded : (shiftToTargetExponent Format.binary64 m e accuracy).1.roundedMantissa = 2 ^ 53) :
    roundWithAccuracy Format.binary64 s m e accuracy =
      .finite s (2 ^ 52) (max e (cutExponent m e) + 1) (Nat.two_pow_pos 52) := by
  have hraise : cutExponent (2 ^ 53) (max e (cutExponent m e)) = max e (cutExponent m e) + 1 := by
    rw [cutExponent, cutExponent, Nat.log2_two_pow]
    omega
  refine roundWithAccuracy_of_rounded hrounded ?_ ?_ _
  · rw [hraise, add_sub_cancel_left]
    rfl
  · rw [hraise]
    omega

theorem IsCanonical.cutExponent_eq {m : ℕ} {e : ℤ} (h : IsCanonical m e) (hm : 0 < m) :
    cutExponent m e = e := by
  obtain ⟨hlt, hleast, hfull⟩ := h
  have hlog : m.log2 < 53 := (Nat.log2_lt hm.ne').mpr hlt
  have hbits : 2 ^ 52 ≤ m → 52 ≤ m.log2 := (Nat.le_log2 hm.ne').mpr
  rw [cutExponent]
  omega

/-- What is a double already is not changed by rounding. -/
theorem roundWithAccuracy_of_isCanonical {m : ℕ} {e : ℤ} (h : IsCanonical m e) (s : Sign)
    (hm : 0 < m) : roundWithAccuracy Format.binary64 s m e .exact = .finite s m e hm := by
  have hcut := h.cutExponent_eq hm
  have hrounded : (shiftToTargetExponent Format.binary64 m e .exact).1.roundedMantissa = m := by
    rw [shiftToTargetExponent, targetExponent_eq, hcut, shiftToExponent, Int.sub_self]
    rfl
  have hround := roundWithAccuracy_of_lt (s := s) hm h.lt hrounded
  rwa [hcut, max_self] at hround

/-- A number that is not below the least double is rounded to a number of its sign. The exponent is
that of the cut mantissa, raised by one only if rounding carries through all of its 53 bits. -/
theorem exists_roundWithAccuracy {m : ℕ} {e : ℤ} (hm : 0 < m) (hleast : -1074 ≤ m.log2 + e)
    (he : e ≤ cutExponent m e) (s : Sign) (accuracy : Accuracy) :
    ∃ n d hn, roundWithAccuracy Format.binary64 s m e accuracy = .finite s n d hn ∧
      IsCanonical n d ∧ cutExponent m e ≤ d ∧
      (d ≤ cutExponent m e ∨
        d = cutExponent m e + 1 ∧ 2 ^ 53 ≤ m / 2 ^ (cutExponent m e - e).toNat + 1) := by
  have hcut := isCanonical_cut hm he
  have hbounds := roundToNearestEven_bounds
    (shiftToTargetExponent Format.binary64 m e accuracy).1.accuracy
    (shiftToTargetExponent Format.binary64 m e accuracy).1.mantissa
  rw [← ExtendedMantissa.roundedMantissa, shiftToTargetExponent_mantissa] at hbounds
  have hpos : 0 < m / 2 ^ (cutExponent m e - e).toNat := by
    have hfits : 2 ^ (cutExponent m e - e).toNat ≤ m :=
      (Nat.pow_le_pow_right (by decide) (by rw [cutExponent] at he ⊢; omega)).trans
        (Nat.log2_self_le hm.ne')
    exact Nat.div_pos hfits (Nat.two_pow_pos _)
  generalize hq : m / 2 ^ (cutExponent m e - e).toNat = q at hcut hbounds hpos ⊢
  generalize hr : (shiftToTargetExponent Format.binary64 m e accuracy).1.roundedMantissa = r
    at hbounds
  obtain ⟨hlt, hmin, hfull⟩ := hcut
  by_cases hcarry : r < 2 ^ 53
  · refine ⟨r, cutExponent m e, by omega, ?_, ⟨hcarry, hmin, by omega⟩, le_refl _,
      Or.inl (le_refl _)⟩
    rw [roundWithAccuracy_of_lt (by omega) hcarry hr]
    simp [max_eq_right he]
  · have hr' : r = 2 ^ 53 := by omega
    refine ⟨2 ^ 52, cutExponent m e + 1, Nat.two_pow_pos 52, ?_, ⟨by decide, by omega, by omega⟩,
      by omega, by omega⟩
    rw [roundWithAccuracy_of_carry (hr.trans hr')]
    simp [max_eq_right he]

variable {m : ℕ} {e : ℤ}

theorem cutExponent_le_of_lt (hm : 0 < m) (he : e ≤ 971) (hlt : m < 2 ^ 53 * 2 ^ (971 - e).toNat) :
    cutExponent m e ≤ 971 := by
  have hlog : m.log2 < 53 + (971 - e).toNat := (Nat.log2_lt hm.ne').mpr (by rwa [pow_add])
  rw [cutExponent]
  omega

/-- Below the greatest double nothing is rounded to an infinity. -/
theorem unpack_pack_round_finite (hm : 0 < m) (hleast : -1074 ≤ m.log2 + e)
    (hcut : e ≤ cutExponent m e) (he : e ≤ 971) (hlt : m < (2 ^ 53 - 1) * 2 ^ (971 - e).toNat) (s : Sign) (accuracy : Accuracy) :
    ∃ n d hn, (Float.Model.pack (roundWithAccuracy Format.binary64 s m e accuracy)).unpack =
      .finite s n d hn := by
  obtain ⟨n, d, hn, hround, hcanonical, -, hd⟩ := exists_roundWithAccuracy hm hleast hcut s accuracy
  have hle : cutExponent m e ≤ 971 := by
    refine cutExponent_le_of_lt hm he (hlt.trans_le ?_)
    exact Nat.mul_le_mul_right _ (by decide)
  have hgreatest : d ≤ 971 := by
    rcases hd with hd | ⟨rfl, hcarry⟩
    · exact hd.trans hle
    · by_contra hover
      obtain hmax : cutExponent m e = 971 := by omega
      rw [hmax] at hcarry
      have hsmall : m / 2 ^ (971 - e).toNat < 2 ^ 53 - 1 :=
        (Nat.div_lt_iff_lt_mul (Nat.two_pow_pos _)).mpr hlt
      omega
  rw [hround]
  exact ⟨n, d, hn, unpack_pack_finite hcanonical hgreatest s hn⟩

theorem unpack_pack_round_infinity (hm : 0 < m) (hcut : e ≤ cutExponent m e)
    (hlog : 1024 ≤ m.log2 + e) (s : Sign) (accuracy : Accuracy) :
    (Float.Model.pack (roundWithAccuracy Format.binary64 s m e accuracy)).unpack = .infinity s := by
  obtain ⟨n, d, hn, hround, -, hd, -⟩ := exists_roundWithAccuracy hm (by omega) hcut s accuracy
  have hover : 972 ≤ cutExponent m e := by
    rw [cutExponent]
    omega
  rw [hround]
  exact unpack_pack_infinity (by omega) s hn

end TemplateCost.Double
