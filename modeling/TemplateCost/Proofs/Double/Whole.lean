import TemplateCost.Proofs.Double.Nonneg

/-! # Whole numbers as doubles

A positive whole number of at most 64 bits is converted to a positive finite double. Up to 53 bits it is
converted exactly and multiplied by one; beyond that it is rounded once.
-/
namespace TemplateCost.Double
open Float.Model Float.Model.UnpackedFloat

theorem log2_mul_two_pow {n : ℕ} (hn : 0 < n) (k : ℕ) : (n * 2 ^ k).log2 = n.log2 + k := by
  induction k with
  | zero => rw [pow_zero, mul_one, add_zero]
  | succ k ih =>
    have hpos : n * 2 ^ k ≠ 0 := by positivity
    rw [pow_succ, ← mul_assoc, Nat.log2_eq_log_two, Nat.log_mul_base one_lt_two hpos,
      ← Nat.log2_eq_log_two, ih, add_assoc]

/-- A whole number below 2 ^ 53 is moved until its leading bit is at place 52. -/
theorem isCanonical_whole {k : ℕ} (hk : 0 < k) (hlt : k < 2 ^ 53) :
    IsCanonical (k * 2 ^ (52 - k.log2)) (k.log2 - 52) := by
  have hlog : k.log2 < 53 := (Nat.log2_lt hk.ne').mpr hlt
  have hm : 0 < k * 2 ^ (52 - k.log2) := Nat.mul_pos hk (Nat.two_pow_pos _)
  have hmlog : (k * 2 ^ (52 - k.log2)).log2 = 52 := by
    rw [log2_mul_two_pow hk]
    omega
  exact ⟨(Nat.log2_lt hm.ne').mp (by omega), by omega, Or.inl ((Nat.le_log2 hm.ne').mp hmlog.ge)⟩

theorem ofInt_of_lt {k : ℕ} (hk : 0 < k) (hlt : k < 2 ^ 53) :
    UnpackedFloat.ofInt Format.binary64 k =
      .finite .positive (k * 2 ^ (52 - k.log2)) (k.log2 - 52) (Nat.mul_pos hk (Nat.two_pow_pos _)) := by
  have hlog : k.log2 < 53 := (Nat.log2_lt hk.ne').mpr hlt
  have hpos : compare (k : ℤ) 0 = .gt := Int.compare_eq_gt.mpr (by omega)
  have hcut : cutExponent k 0 = k.log2 - 52 := by
    rw [cutExponent]
    omega
  have hshift : (0 - ((k.log2 : ℤ) - 52)).toNat = 52 - k.log2 := by omega
  have hexponent : 0 - ((52 - k.log2 : ℕ) : ℤ) = k.log2 - 52 := by omega
  rw [UnpackedFloat.ofInt, UnpackedFloat.normalize, hpos]
  dsimp only
  rw [UnpackedFloat.round, Int.toNat_natCast, targetExponent_eq, hcut, decreaseExponent, hshift,
    hexponent, Nat.shiftLeft_eq]
  exact roundWithAccuracy_of_isCanonical (isCanonical_whole hk hlt) .positive _

theorem parts_toFloat {k : ℕ} (hk : 0 < k) (hlt : k < 2 ^ 53) : parts k.toUInt64.toFloat =
    .finite .positive (k * 2 ^ (52 - k.log2)) (k.log2 - 52) (Nat.mul_pos hk (Nat.two_pow_pos _)) := by
  have hlog : k.log2 < 53 := (Nat.log2_lt hk.ne').mpr hlt
  have htoNat : k.toUInt64.toNat = k := by
    rw [Nat.toUInt64, UInt64.toNat_ofNat']
    exact Nat.mod_eq_of_lt (hlt.trans (by decide))
  have hparts : parts k.toUInt64.toFloat =
      (Float.Model.pack (UnpackedFloat.ofInt Format.binary64 k.toUInt64.toNat)).unpack := rfl
  rw [hparts, htoNat, ofInt_of_lt hk hlt]
  exact unpack_pack_finite (isCanonical_whole hk hlt) (by omega) .positive _

theorem ofNat_of_lt {k : ℕ} (hlt : k < 2 ^ 53) :
    Float.ofNat k = k.toUInt64.toFloat * Float.ofBits 0x3FF0000000000000 := by
  have hfast : k < 2 ^ 53 ∧ 0 ≤ 22 := ⟨hlt, by decide⟩
  have hscientific : Float.ofNat k = Float.ofScientific k false 0 := rfl
  rw [hscientific, Float.ofScientific, dif_pos hfast]
  rfl

theorem parts_ofNat_of_le {k : ℕ} (hk : 0 < k) (hle : 2 ^ 53 ≤ k) : parts (Float.ofNat k) =
    (Float.Model.pack (roundWithAccuracy Format.binary64 .positive (k * 2 ^ 53) (-53) .exact)).unpack := by
  have hslow : ¬ (k < 2 ^ 53 ∧ 0 ≤ 22) := fun h => absurd h.1 (not_lt.mpr hle)
  have hscientific : Float.ofNat k = Float.ofScientific k false 0 := rfl
  have hparts : parts (Float.ofNat k) =
      (Float.Model.pack (UnpackedFloat.ofScientific Format.binary64 k 0)).unpack := by
    rw [hscientific, Float.ofScientific, dif_neg hslow]
    rfl
  have hrange : ¬ (0 : ℤ) < -(2 ^ Format.binary64.exponentBits + k.log2) := by
    have hbits : (2 : ℤ) ^ Format.binary64.exponentBits = 2048 := by decide
    omega
  have hmantissa : k <<< Format.binary64.mantissaBits * 10 ^ Int.toNat 0 = k * 2 ^ 53 := by
    rw [Nat.shiftLeft_eq, Int.toNat_zero, pow_zero, mul_one]
    rfl
  rw [hparts, UnpackedFloat.ofScientific, dif_neg hk.ne', if_neg (by decide), if_neg hrange,
    if_pos le_rfl, UnpackedFloat.mul, hmantissa]
  rfl

/-- Such numbers are far below the greatest double. -/
theorem lt_greatest {m : ℕ} {e : ℤ} (hm : m < 2 ^ 117) (he : e ≤ 0) :
    m < (2 ^ 53 - 1) * 2 ^ (971 - e).toNat := by
  calc m < 2 ^ 117 := hm
    _ ≤ 2 ^ (971 - e).toNat := Nat.pow_le_pow_right (by decide) (by omega)
    _ ≤ (2 ^ 53 - 1) * 2 ^ (971 - e).toNat := Nat.le_mul_of_pos_left _ (by decide)

theorem parts_ofNat {k : ℕ} (hk : 0 < k) (hlt : k < 2 ^ 64) :
    ∃ m e hm, parts (Float.ofNat k) = .finite .positive m e hm := by
  by_cases hsmall : k < 2 ^ 53
  · have hklog : k.log2 < 53 := (Nat.log2_lt hk.ne').mpr hsmall
    obtain ⟨m, e, hm, hparts, he⟩ :
        ∃ m e hm, parts k.toUInt64.toFloat = .finite .positive m e hm ∧ e ≤ 0 :=
      ⟨_, _, _, parts_toFloat hk hsmall, by omega⟩
    obtain ⟨hcanonical, -⟩ := isCanonical_of_parts hparts
    have hcut := hcanonical.cutExponent_eq hm
    obtain ⟨hmlt, hleast, -⟩ := hcanonical
    have hone : parts (Float.ofBits 0x3FF0000000000000) =
      .finite .positive (2 ^ 52) (-52) (Nat.two_pow_pos 52) := rfl
    have hlog : (m * 2 ^ 52).log2 = m.log2 + 52 := log2_mul_two_pow hm 52
    rw [ofNat_of_lt hsmall, parts_mul, hparts, hone]
    refine unpack_pack_round_finite (Nat.mul_pos hm (Nat.two_pow_pos 52)) (by omega) ?_ (by omega)
      (lt_greatest (by omega) (by omega)) .positive .exact
    rw [cutExponent] at hcut ⊢
    omega
  · have hlog : (k * 2 ^ 53).log2 = k.log2 + 53 := log2_mul_two_pow hk 53
    have hbits : 53 ≤ k.log2 := (Nat.le_log2 hk.ne').mpr (not_lt.mp hsmall)
    rw [parts_ofNat_of_le hk (not_lt.mp hsmall)]
    refine unpack_pack_round_finite (Nat.mul_pos hk (Nat.two_pow_pos 53)) (by omega) ?_ (by omega)
      (lt_greatest (by omega) (by omega)) .positive .exact
    rw [cutExponent]
    omega

theorem ofInt_finite_pos {n : ℤ} (hpos : 0 < n) (hlt : n < 2 ^ 64) :
    (Float.ofInt n).isFinite = true ∧ 0 < Float.ofInt n := by
  obtain ⟨k, rfl⟩ := Int.eq_ofNat_of_zero_le hpos.le
  exact finite_pos_iff.mpr (parts_ofNat (by omega) (by omega))

end TemplateCost.Double
