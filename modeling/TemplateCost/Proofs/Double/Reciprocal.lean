import TemplateCost.Proofs.Double.Rounding

/-! # Reciprocals

One divided by a positive finite double is positive: even the greatest double has a reciprocal far
above the least one. At the other end doubles go on where their reciprocals do not: up to 2 ^ -1024
the reciprocal is an infinity, and above it is finite.
-/
namespace TemplateCost.Double
open Float.Model Float.Model.UnpackedFloat

/-- The greatest double with an infinite reciprocal, 2 ^ -1024. -/
def reciprocalLimit : Float := Float.ofBits 0x4000000000000

theorem parts_reciprocalLimit :
    parts reciprocalLimit = .finite .positive (2 ^ 50) (-1074) (Nat.two_pow_pos 50) := rfl

theorem parts_one : parts 1.0 = .finite .positive (2 ^ 52) (-52) (Nat.two_pow_pos 52) := rfl

theorem parts_div (f g : Float) : parts (f / g) =
    (Float.Model.pack (UnpackedFloat.div Format.binary64 (parts f) (parts g))).unpack := rfl

/-- The exponent of one divided by a number, before rounding. -/
def quotientExponent (m : ℕ) (e : ℤ) : ℤ := max (-m.log2 - e - 53) (-1074)

def quotient (m : ℕ) (e : ℤ) : ℕ := 2 ^ (-e - quotientExponent m e).toNat / m

variable {m : ℕ} {e : ℤ}

theorem divCore_one (h : IsCanonical m e) (hm : 0 < m) (he : e ≤ 971) :
    ∃ accuracy, divCore Format.binary64 (2 ^ 52) (-52) m e =
      (quotient m e, quotientExponent m e, accuracy) := by
  have hbits : Format.binary64.mantissaBits = 53 := rfl
  have hmin : Format.binary64.minExponent = -1074 := by decide
  have hlog : m.log2 < 53 := (Nat.log2_lt hm.ne').mpr h.lt
  have hle : quotientExponent m e ≤ -52 - e := by
    rw [quotientExponent]
    have := h.full
    omega
  have htarget : min (-52 - e) (Format.binary64.targetExponent
      (totalExponent (2 ^ 52) (-52) - totalExponent m e)) = quotientExponent m e := by
    rw [Format.targetExponent, totalExponent, totalExponent, Nat.log2_two_pow, hbits, hmin]
    rw [quotientExponent] at hle ⊢
    omega
  rw [divCore, htarget]
  have hshift : 52 + (-52 - e - quotientExponent m e).toNat = (-e - quotientExponent m e).toNat := by
    omega
  refine ⟨_, Prod.ext ?_ rfl⟩
  dsimp only
  rw [quotient, Nat.shiftLeft_eq, ← pow_add, hshift]

theorem two_pow_le_quotient {a : ℕ} (hm : 0 < m)
    (h : 2 ^ a * m ≤ 2 ^ (-e - quotientExponent m e).toNat) : 2 ^ a ≤ quotient m e := by
  rwa [quotient, Nat.le_div_iff_mul_le hm]

/-- The quotient has all the bits that rounding needs. -/
theorem quotient_log2_ge (hc : IsCanonical m e) (hm : 0 < m) (he : e ≤ 971) :
    0 < quotient m e ∧ -e - m.log2 - 1 ≤ (quotient m e).log2 + quotientExponent m e := by
  have hlog : m.log2 < 53 := (Nat.log2_lt hm.ne').mpr hc.lt
  have hlt : m < 2 ^ (m.log2 + 1) := Nat.lt_log2_self
  have hle : 2 ^ ((-e - quotientExponent m e).toNat - (m.log2 + 1)) ≤ quotient m e := by
    refine two_pow_le_quotient hm ?_
    refine (Nat.mul_le_mul_left _ hlt.le).trans ?_
    rw [← pow_add]
    refine Nat.pow_le_pow_right (by decide) ?_
    rw [quotientExponent]
    have := hc.full
    omega
  have hpos : 0 < quotient m e := (Nat.two_pow_pos _).trans_le hle
  have := (Nat.le_log2 hpos.ne').mpr hle
  exact ⟨hpos, by omega⟩

theorem quotientExponent_le_cut (hc : IsCanonical m e) (hm : 0 < m) (he : e ≤ 971) :
    quotientExponent m e ≤ cutExponent (quotient m e) (quotientExponent m e) := by
  obtain ⟨-, hlog⟩ := quotient_log2_ge hc hm he
  rw [cutExponent]
  rw [quotientExponent] at hlog ⊢
  omega

theorem parts_one_div {f : Float} {hm : 0 < m} (hf : parts f = .finite .positive m e hm) :
    ∃ accuracy, parts (1.0 / f) = (Float.Model.pack (roundWithAccuracy Format.binary64 .positive
      (quotient m e) (quotientExponent m e) accuracy)).unpack := by
  obtain ⟨hc, he⟩ := isCanonical_of_parts hf
  obtain ⟨accuracy, hdiv⟩ := divCore_one hc hm he
  refine ⟨accuracy, ?_⟩
  rw [parts_div, parts_one, hf, UnpackedFloat.div]
  dsimp only
  rw [hdiv]
  rfl

theorem le_reciprocalLimit_iff {f : Float} {hm : 0 < m} (hf : parts f = .finite .positive m e hm) :
    f ≤ reciprocalLimit ↔ e = -1074 ∧ m ≤ 2 ^ 50 := by
  rw [le_iff_of_finite_pos hf parts_reciprocalLimit]
  have := (isCanonical_of_parts hf).1.least_le
  omega

theorem parts_one_div_infinity {f : Float} {hm : 0 < m} (hf : parts f = .finite .positive m e hm)
    (hle : f ≤ reciprocalLimit) : parts (1.0 / f) = .infinity .positive := by
  obtain ⟨hc, he⟩ := isCanonical_of_parts hf
  obtain ⟨accuracy, hparts⟩ := parts_one_div hf
  obtain ⟨hpos, -⟩ := quotient_log2_ge hc hm he
  obtain ⟨rfl, hsmall⟩ := (le_reciprocalLimit_iff hf).mp hle
  have hlog : m.log2 < 51 := (Nat.log2_lt hm.ne').mpr (by omega)
  have hT : quotientExponent m (-1074) ≤ 1021 := by
    rw [quotientExponent]
    omega
  have hlarge : 2 ^ (1024 - quotientExponent m (-1074)).toNat ≤ quotient m (-1074) := by
    refine two_pow_le_quotient hm ?_
    refine (Nat.mul_le_mul_left _ hsmall).trans ?_
    rw [← pow_add]
    refine Nat.pow_le_pow_right (by decide) ?_
    omega
  have hlarge' := (Nat.le_log2 hpos.ne').mpr hlarge
  rw [hparts]
  exact unpack_pack_round_infinity hpos (quotientExponent_le_cut hc hm he) (by omega) _ _

theorem parts_one_div_finite {f : Float} {hm : 0 < m} (hf : parts f = .finite .positive m e hm)
    (hgt : ¬ f ≤ reciprocalLimit) : ∃ n d hn, parts (1.0 / f) = .finite .positive n d hn := by
  obtain ⟨hc, he⟩ := isCanonical_of_parts hf
  obtain ⟨accuracy, hparts⟩ := parts_one_div hf
  obtain ⟨hpos, hlog⟩ := quotient_log2_ge hc hm he
  have hmlog : m.log2 < 53 := (Nat.log2_lt hm.ne').mpr hc.lt
  have hgt' : ¬ (e = -1074 ∧ m ≤ 2 ^ 50) := fun h => hgt ((le_reciprocalLimit_iff hf).mpr h)
  have hleast := hc.least_le
  have hm50 : 50 ≤ m.log2 := by
    refine (Nat.le_log2 hm.ne').mpr ?_
    have := hc.full
    omega
  have hT : quotientExponent m e ≤ 971 := by
    rw [quotientExponent]
    have : e = -1074 ∨ 52 ≤ m.log2 := hc.full.symm.imp_right fun h => (Nat.le_log2 hm.ne').mpr h
    omega
  have hproduct : 2 ^ (-e - 971).toNat < (2 ^ 53 - 1) * m := by
    by_cases hmin : e = -1074
    · have hbits : (-e - 971).toNat = 103 := by omega
      rw [hbits]
      omega
    · have : 2 ^ 52 ≤ m := hc.full.resolve_right hmin
      have : 2 ^ (-e - 971).toNat ≤ 2 ^ 102 := Nat.pow_le_pow_right (by decide) (by omega)
      omega
  have hlt : quotient m e < (2 ^ 53 - 1) * 2 ^ (971 - quotientExponent m e).toNat := by
    rw [quotient, Nat.div_lt_iff_lt_mul hm]
    calc 2 ^ (-e - quotientExponent m e).toNat
        ≤ 2 ^ (-e - 971).toNat * 2 ^ (971 - quotientExponent m e).toNat := by
          rw [← pow_add]
          exact Nat.pow_le_pow_right (by decide) (by omega)
      _ < (2 ^ 53 - 1) * m * 2 ^ (971 - quotientExponent m e).toNat :=
          Nat.mul_lt_mul_of_pos_right hproduct (Nat.two_pow_pos _)
      _ = _ := by ring
  rw [hparts]
  exact unpack_pack_round_finite hpos (by omega) (quotientExponent_le_cut hc hm he) hT hlt _ _

/-- A reciprocal is positive, and finite exactly above the limit. -/
theorem reciprocal_pos {f : Float} (hfinite : f.isFinite = true) (hpos : 0 < f) : 0 < 1.0 / f := by
  obtain ⟨m, e, hm, hf⟩ := finite_pos_iff.mp ⟨hfinite, hpos⟩
  by_cases hle : f ≤ reciprocalLimit
  · exact zero_lt_iff.mpr (Or.inl (parts_one_div_infinity hf hle))
  · exact zero_lt_iff.mpr (Or.inr (parts_one_div_finite hf hle))

theorem isFinite_reciprocal_iff {f : Float} (hfinite : f.isFinite = true) (hpos : 0 < f) :
    (1.0 / f).isFinite = true ↔ ¬ f ≤ reciprocalLimit := by
  obtain ⟨m, e, hm, hf⟩ := finite_pos_iff.mp ⟨hfinite, hpos⟩
  rw [isFinite_eq]
  constructor
  · intro hinverse hle
    rw [parts_one_div_infinity hf hle] at hinverse
    cases hinverse
  · intro hgt
    obtain ⟨n, d, hn, hparts⟩ := parts_one_div_finite hf hgt
    rw [hparts]
    rfl

end TemplateCost.Double
