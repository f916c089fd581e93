import TemplateCost.Decimal.Binary64
import TemplateCost.Proofs.Double.Parts

/-! # Exact values of doubles

The exact value that decimals are formed from is what is stored: the fields of sign, exponent and mantissa
are cut out of the bits by division. Exactly the finite doubles have one.
-/
namespace TemplateCost.Double
open Float.Model Float.Model.UnpackedFloat Decimal

def isNegative : Sign → Bool
  | .negative => true
  | .positive => false

/-! ## Fields -/

variable (f : Float)

theorem toNat_unpackExponent : (@unpackExponent Format.binary64 f.toBits.toBitVec).toNat =
    f.toBits.toNat / 0x10000000000000 % 0x800 := by
  rw [unpackExponent, BitVec.toNat_cast, BitVec.extractLsb_toNat, Nat.shiftRight_eq_div_pow]
  rfl

theorem toNat_unpackMantissa : (@unpackMantissa Format.binary64 f.toBits.toBitVec).toNat =
    f.toBits.toNat % 0x10000000000000 := by
  rw [unpackMantissa, BitVec.toNat_cast, BitVec.extractLsb_toNat, Nat.shiftRight_zero]
  rfl

theorem isNegative_unpackSign : isNegative (Sign.ofBitVec (@unpackSign Format.binary64 f.toBits.toBitVec)) =
    decide (f.toBits.toNat / 0x8000000000000000 = 1) := by
  have hlt : f.toBits.toNat < 2 ^ 64 := f.toBits.toBitVec.isLt
  have htop : (@unpackSign Format.binary64 f.toBits.toBitVec).toNat =
      f.toBits.toNat / 0x8000000000000000 := by
    have hmod : f.toBits.toNat / 2 ^ 63 % 2 ^ 1 = f.toBits.toNat / 2 ^ 63 := Nat.mod_eq_of_lt (by omega)
    rw [unpackSign, BitVec.toNat_cast, BitVec.extractLsb_toNat, Nat.shiftRight_eq_div_pow]
    exact hmod
  rw [Sign.ofBitVec, ← htop]
  split
  · rename_i hzero
    rw [hzero]
    rfl
  · rename_i hzero
    have hne : (@unpackSign Format.binary64 f.toBits.toBitVec).toNat ≠ 0 := BitVec.toNat_ne.mp hzero
    have hone : (@unpackSign Format.binary64 f.toBits.toBitVec).toNat = 1 := by omega
    rw [hone]
    rfl

/-! ## Values -/

/-- The exact value is the one of the parts. -/
theorem ofFloat?_eq : Binary64.ofFloat? f = match parts f with
    | .finite s m e _ => some ⟨isNegative s, m, e⟩
    | .zero s => some ⟨isNegative s, 0, Binary64.leastExponent⟩
    | _ => none := by
  have hfull : @unpackExponent Format.binary64 f.toBits.toBitVec = -1#11 ↔
      f.toBits.toNat / 0x10000000000000 % 0x800 = 2047 := by
    rw [← toNat_unpackExponent, ← BitVec.toNat_inj]
    rfl
  have hempty : @unpackExponent Format.binary64 f.toBits.toBitVec = 0#11 ↔
      f.toBits.toNat / 0x10000000000000 % 0x800 = 0 := by
    rw [← toNat_unpackExponent, ← BitVec.toNat_inj]
    rfl
  have hzero : @unpackMantissa Format.binary64 f.toBits.toBitVec = 0#52 ↔
      f.toBits.toNat % 0x10000000000000 = 0 := by
    rw [← toNat_unpackMantissa, ← BitVec.toNat_inj]
    rfl
  have hparts : parts f = UnpackedFloat.unpack Format.binary64 f.toBits.toBitVec := rfl
  rw [hparts, UnpackedFloat.unpack.eq_def, Binary64.ofFloat?, ← isNegative_unpackSign, exponentBias_binary64]
  dsimp only
  by_cases hinfinite : @unpackExponent Format.binary64 f.toBits.toBitVec = -1#11
  · rw [if_pos (hfull.mp hinfinite), if_pos hinfinite]
    by_cases hnone : @unpackMantissa Format.binary64 f.toBits.toBitVec = 0#52
    · rw [if_pos hnone]
    · rw [if_neg hnone]
  · rw [if_neg (mt hfull.mpr hinfinite), if_neg hinfinite]
    by_cases hsmall : @unpackExponent Format.binary64 f.toBits.toBitVec = 0#11
    · rw [if_pos (hempty.mp hsmall), if_pos hsmall]
      by_cases hnone : @unpackMantissa Format.binary64 f.toBits.toBitVec = 0#52
      · rw [dif_pos hnone, hzero.mp hnone]
      · rw [dif_neg hnone]
        dsimp only
        rw [toNat_unpackMantissa, toNat_unpackExponent, hempty.mp hsmall]
        rfl
    · rw [if_neg (mt hempty.mpr hsmall), if_neg hsmall]
      have hleading : (1#1 ++ @unpackMantissa Format.binary64 f.toBits.toBitVec).toNat =
          2 ^ 52 + (@unpackMantissa Format.binary64 f.toBits.toBitVec).toNat := toNat_leading_append _
      have hexponent : ∀ field : ℕ, (field : ℤ) + (Binary64.leastExponent - 1) = field - (1023 + 52) := by
        intro field
        rw [Binary64.leastExponent]
        omega
      dsimp only
      rw [hleading, toNat_unpackMantissa, toNat_unpackExponent, hexponent, add_comm]
      rfl

theorem parts_of_ofFloat? {f : Float} {b : Binary64} (h : Binary64.ofFloat? f = some b)
    (hb : 0 < b.mantissa) : ∃ s, isNegative s = b.negative ∧ parts f = .finite s b.mantissa b.exponent hb := by
  rw [ofFloat?_eq] at h
  cases hparts : parts f with
  | finite s m e hm =>
    rw [hparts] at h
    cases h
    exact ⟨s, rfl, rfl⟩
  | zero s =>
    rw [hparts] at h
    cases h
    cases hb
  | infinity s =>
    rw [hparts] at h
    cases h
  | notANumber =>
    rw [hparts] at h
    cases h

theorem isSome_ofFloat? : (Binary64.ofFloat? f).isSome = f.isFinite := by
  rw [ofFloat?_eq, isFinite_eq]
  cases parts f <;> rfl

end TemplateCost.Double
