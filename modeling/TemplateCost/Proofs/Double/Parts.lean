import Mathlib

/-! # Doubles taken apart

A finite double is a mantissa times a power of two, with all 53 bits of the mantissa in use unless the
exponent is the least there is. Such parts are put together and taken apart again without loss, and
an exponent beyond the greatest gives an infinity. Signs and the order of positive doubles are read
off the parts.
-/
namespace TemplateCost.Double
open Float.Model Float.Model.UnpackedFloat

abbrev parts (f : Float) : UnpackedFloat := f.toModel.unpack

/-- Mantissa and exponent of a finite double, but for the greatest exponent. -/
structure IsCanonical (m : ℕ) (e : ℤ) : Prop where
  lt : m < 2 ^ 53
  least_le : -1074 ≤ e
  full : 2 ^ 52 ≤ m ∨ e = -1074

/-! ## Storing parts -/

theorem exponentBias_binary64 : (Format.binary64.exponentBias : ℤ) = 1023 := by decide

theorem toNat_leading_append (b : BitVec 52) : (1#1 ++ b).toNat = 2 ^ 52 + b.toNat := by
  rw [BitVec.toNat_append, ← Nat.shiftLeft_add_eq_or_of_lt b.isLt]
  rfl

theorem unpack_packComponents (s : Sign) (exponent : BitVec 11) (mantissa : BitVec 52) :
    UnpackedFloat.unpack Format.binary64 (packComponents Format.binary64 s exponent mantissa) =
      if exponent = -1#11 then if mantissa = 0#52 then .infinity s else .notANumber
      else if exponent = 0#11 then
        if h : mantissa = 0#52 then .zero s
        else .finite s mantissa.toNat (-1074) (Nat.pos_of_ne_zero (BitVec.toNat_ne.mp h))
      else .finite s (1#1 ++ mantissa).toNat (exponent.toNat - 1075)
        (by rw [toNat_leading_append]; positivity) := by
  rw [UnpackedFloat.unpack.eq_def]
  simp only [unpackExponent_packComponents, unpackMantissa_packComponents,
    unpackSign_packComponents, Sign.ofBitVec_toBitVec, exponentBias_binary64]
  split
  · rfl
  · split
    · rename_i hzero
      simp [hzero]
    · rfl

theorem isCanonical_of_parts {f : Float} {s : Sign} {m : ℕ} {e : ℤ} {hm : 0 < m}
    (h : parts f = .finite s m e hm) : IsCanonical m e ∧ e ≤ 971 := by
  have hbits := @packComponents_unpackSign_unpackExponent_unpackMantissa Format.binary64
    f.toModel.toBits.toBitVec
  rw [parts, Float.Model.unpack, ← hbits, unpack_packComponents] at h
  have hmantissa := (@unpackMantissa Format.binary64 f.toModel.toBits.toBitVec).isLt
  have hexponent := (@unpackExponent Format.binary64 f.toModel.toBits.toBitVec).isLt
  dsimp only at hmantissa hexponent
  split at h
  · split at h <;> cases h
  · rename_i hinf
    have hinf' := BitVec.toNat_ne.mp hinf
    split at h
    · split at h <;> cases h
      exact ⟨⟨by omega, le_refl _, Or.inr rfl⟩, by omega⟩
    · rename_i hzero
      have hzero' := BitVec.toNat_ne.mp hzero
      cases h
      rw [toNat_leading_append]
      simp only [BitVec.toNat_neg, BitVec.toNat_ofNat] at hzero' hinf'
      exact ⟨⟨by omega, by omega, Or.inl (by omega)⟩, by omega⟩

theorem unpack_pack (x : UnpackedFloat) : (Float.Model.pack x).unpack =
    UnpackedFloat.unpack Format.binary64 (UnpackedFloat.pack Format.binary64 x) := rfl

theorem unpack_normal {m k : ℕ} (hle : 2 ^ 52 ≤ m) (hlt : m < 2 ^ 53) (hpos : 1 ≤ k) (hk : k ≤ 2046)
    (s : Sign) (hm : 0 < m) :
    UnpackedFloat.unpack Format.binary64
        (packComponents Format.binary64 s (BitVec.ofNat 11 k) (BitVec.ofNat 52 m)) =
      .finite s m (k - 1075) hm := by
  have hinf : BitVec.ofNat 11 k ≠ -1#11 := by
    refine BitVec.toNat_ne.mpr ?_
    rw [BitVec.toNat_ofNat, BitVec.toNat_neg, BitVec.toNat_ofNat]
    omega
  have hzero : BitVec.ofNat 11 k ≠ 0#11 := by
    refine BitVec.toNat_ne.mpr ?_
    rw [BitVec.toNat_ofNat, BitVec.toNat_ofNat]
    omega
  rw [unpack_packComponents, if_neg hinf, if_neg hzero]
  congr 1
  · rw [toNat_leading_append, BitVec.toNat_ofNat]
    omega
  · rw [BitVec.toNat_ofNat]
    omega

theorem unpack_subnormal {m : ℕ} (hlt : m < 2 ^ 52) (s : Sign) (hm : 0 < m) :
    UnpackedFloat.unpack Format.binary64
        (packComponents Format.binary64 s 0#11 (BitVec.ofNat 52 m)) =
      .finite s m (-1074) hm := by
  have hzero : BitVec.ofNat 52 m ≠ 0#52 := by
    refine BitVec.toNat_ne.mpr ?_
    rw [BitVec.toNat_ofNat, BitVec.toNat_ofNat]
    omega
  rw [unpack_packComponents, if_neg (by decide), if_pos rfl, dif_neg hzero]
  congr 1
  rw [BitVec.toNat_ofNat]
  omega

theorem unpack_pack_finite {m : ℕ} {e : ℤ} (h : IsCanonical m e) (he : e ≤ 971) (s : Sign)
    (hm : 0 < m) : (Float.Model.pack (.finite s m e hm)).unpack = .finite s m e hm := by
  obtain ⟨hlt, hleast, hfull⟩ := h
  have hbits : Format.binary64.mantissaBits = 53 := rfl
  rw [unpack_pack, UnpackedFloat.pack.eq_def]
  dsimp only
  rw [exponentBias_binary64, if_neg (by omega)]
  by_cases hle : 2 ^ 52 ≤ m
  · have hlog : m.log2 = 52 := (Nat.log2_eq_iff hm.ne').mpr ⟨hle, hlt⟩
    rw [if_pos (by omega), unpack_normal hle hlt (by omega) (by omega) s hm]
    congr 1
    omega
  · have hlog : m.log2 < 52 := (Nat.log2_lt hm.ne').mpr (by omega)
    obtain rfl : e = -1074 := hfull.resolve_left hle
    rw [if_neg (by omega), unpack_subnormal (by omega) s hm]

theorem unpack_pack_infinity {e : ℤ} (he : 972 ≤ e) (s : Sign) {m : ℕ} (hm : 0 < m) :
    (Float.Model.pack (.finite s m e hm)).unpack = .infinity s := by
  rw [unpack_pack, UnpackedFloat.pack.eq_def]
  dsimp only
  rw [exponentBias_binary64, if_pos (by omega)]
  cases s <;> rfl

/-! ## Signs and order -/

theorem parts_zero : parts 0 = .zero .positive := rfl

theorem isFinite_eq (f : Float) : f.isFinite = (parts f).isFinite := rfl

theorem lt_iff {f g : Float} : f < g ↔ UnpackedFloat.compare (parts f) (parts g) = some .lt :=
  decide_eq_true_iff.trans beq_iff_eq

theorem le_iff {f g : Float} :
    f ≤ g ↔ (UnpackedFloat.compare (parts f) (parts g)).any Ordering.isLE = true :=
  decide_eq_true_iff

theorem zero_lt_iff {f : Float} :
    0 < f ↔ parts f = .infinity .positive ∨ ∃ m e hm, parts f = .finite .positive m e hm := by
  rw [lt_iff, parts_zero]
  generalize parts f = p
  cases p with
  | notANumber => simp [UnpackedFloat.compare]
  | infinity s => cases s <;> simp [UnpackedFloat.compare]
  | zero s => simp [UnpackedFloat.compare]
  | finite s m e hm => cases s <;> simp [UnpackedFloat.compare, hm]

theorem pos_of_not_le_zero {f : Float} (hfinite : f.isFinite = true) (h : ¬ f ≤ 0) : 0 < f := by
  rw [isFinite_eq] at hfinite
  rw [le_iff, parts_zero] at h
  rw [zero_lt_iff]
  generalize parts f = p at h hfinite ⊢
  cases p with
  | notANumber => cases hfinite
  | infinity s => cases hfinite
  | zero s => exact absurd rfl h
  | finite s m e hm =>
    cases s with
    | negative => exact absurd rfl h
    | positive => exact Or.inr ⟨m, e, hm, rfl⟩

theorem finite_pos_iff {f : Float} :
    f.isFinite = true ∧ 0 < f ↔ ∃ m e hm, parts f = .finite .positive m e hm := by
  rw [isFinite_eq, zero_lt_iff]
  constructor
  · rintro ⟨hfinite, hinf | hparts⟩
    · rw [hinf] at hfinite
      cases hfinite
    · exact hparts
  · rintro ⟨m, e, hm, hparts⟩
    exact ⟨by rw [hparts]; rfl, Or.inr ⟨m, e, hm, hparts⟩⟩

/-- Positive doubles are ordered by their exponents, then by their mantissas. -/
theorem le_iff_of_finite_pos {f g : Float} {m n : ℕ} {e d : ℤ} {hm : 0 < m} {hn : 0 < n}
    (hf : parts f = .finite .positive m e hm) (hg : parts g = .finite .positive n d hn) :
    f ≤ g ↔ e < d ∨ e = d ∧ m ≤ n := by
  rw [le_iff, hf, hg]
  simp [UnpackedFloat.compare, Ordering.isLE_then_iff_or, compare_lt_iff_lt, Nat.isLE_compare]

end TemplateCost.Double
