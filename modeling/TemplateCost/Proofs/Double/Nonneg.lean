import TemplateCost.Proofs.Double.Rounding

/-! # Doubles that are not negative

A double is at least zero iff it is a zero of either sign, or positive. What is not a number is not.
Rounding keeps the sign, so a sum of such doubles is one again. A product is one if the other factor is
positive and finite: zero times an infinity would not be a number. Whole numbers in the range of 64
bits are converted to such factors.
-/
namespace TemplateCost.Double
open Float.Model Float.Model.UnpackedFloat

/-- Neither negative nor without a value. -/
inductive IsNonneg : UnpackedFloat → Prop
  | zero (s : Sign) : IsNonneg (.zero s)
  | finite (m : ℕ) (e : ℤ) (hm : 0 < m) : IsNonneg (.finite .positive m e hm)
  | infinity : IsNonneg (.infinity .positive)

theorem zero_le_iff {f : Float} : 0 ≤ f ↔ IsNonneg (parts f) := by
  rw [le_iff, parts_zero]
  generalize parts f = p
  constructor
  · intro h
    cases p with
    | notANumber => cases h
    | infinity s =>
      cases s with
      | negative => cases h
      | positive => exact .infinity
    | zero s => exact .zero s
    | finite s m e hm =>
      cases s with
      | negative => cases h
      | positive => exact .finite m e hm
  · intro h
    cases h <;> rfl

/-- What is not below zero is at least zero, unless it is not a number. -/
theorem zero_le_iff_of_not_neg {f : Float} (h : ¬ f < 0) : 0 ≤ f ↔ f.isNaN = false := by
  have hnan : f.isNaN = (parts f).isNaN := rfl
  rw [lt_iff, parts_zero] at h
  rw [zero_le_iff, hnan]
  generalize parts f = p at h ⊢
  cases p with
  | notANumber => exact iff_of_false nofun nofun
  | infinity s =>
    cases s with
    | negative => exact absurd rfl h
    | positive => exact iff_of_true .infinity rfl
  | zero s => exact iff_of_true (.zero s) rfl
  | finite s m e hm =>
    cases s with
    | negative => exact absurd rfl h
    | positive => exact iff_of_true (.finite m e hm) rfl

/-! ## Rounding -/

theorem IsNonneg.roundWithAccuracy (m : ℕ) (e : ℤ) (accuracy : Accuracy) :
    IsNonneg (roundWithAccuracy Format.binary64 .positive m e accuracy) := by
  rw [UnpackedFloat.roundWithAccuracy]
  dsimp only
  split
  · exact .zero _
  · exact .finite _ _ _

theorem IsNonneg.round (m : ℕ) (e : ℤ) : IsNonneg (round Format.binary64 .positive m e) :=
  .roundWithAccuracy _ _ _

/-- Infinities and what is not a number have an exponent of their own. -/
theorem IsNonneg.unpack_packComponents {exponent : BitVec 11} (h : exponent ≠ -1#11)
    (mantissa : BitVec 52) : IsNonneg (UnpackedFloat.unpack Format.binary64
      (packComponents Format.binary64 .positive exponent mantissa)) := by
  rw [Double.unpack_packComponents, if_neg h]
  split
  · split
    · exact .zero _
    · exact .finite _ _ _
  · exact .finite _ _ _

theorem IsNonneg.unpack_pack {x : UnpackedFloat} (h : IsNonneg x) :
    IsNonneg (Float.Model.pack x).unpack := by
  cases h with
  | zero s => cases s <;> exact .zero _
  | infinity => exact .infinity
  | finite m e hm =>
    rw [Double.unpack_pack, UnpackedFloat.pack.eq_def]
    dsimp only
    split
    · exact .infinity
    · rename_i hsmall
      split
      · refine .unpack_packComponents ?_ _
        refine BitVec.toNat_ne.mpr ?_
        rw [BitVec.toNat_ofNat, BitVec.toNat_neg, BitVec.toNat_ofNat]
        omega
      · exact .unpack_packComponents (by decide) _

/-! ## Sums and products -/

theorem parts_add (f g : Float) : parts (f + g) =
    (Float.Model.pack (UnpackedFloat.add Format.binary64 (parts f) (parts g))).unpack := rfl

theorem parts_mul (f g : Float) : parts (f * g) =
    (Float.Model.pack (UnpackedFloat.mul Format.binary64 (parts f) (parts g))).unpack := rfl

theorem IsNonneg.normalize (m : ℕ) (e : ℤ) (s : Sign) :
    IsNonneg (normalize Format.binary64 m e s) := by
  rw [UnpackedFloat.normalize]
  split
  · rename_i hneg
    have := Int.compare_eq_lt.mp hneg
    omega
  · exact .zero s
  · exact .round _ _

theorem IsNonneg.add {x y : UnpackedFloat} (hx : IsNonneg x) (hy : IsNonneg y) :
    IsNonneg (UnpackedFloat.add Format.binary64 x y) := by
  cases hx with
  | zero s =>
    cases hy with
    | zero t => cases s <;> cases t <;> exact .zero _
    | finite n d hn => exact .finite n d hn
    | infinity => exact .infinity
  | finite m e hm =>
    cases hy with
    | zero t => exact .finite m e hm
    | finite n d hn => exact .normalize _ _ _
    | infinity => exact .infinity
  | infinity => cases hy <;> exact .infinity

theorem IsNonneg.mul_finite {x : UnpackedFloat} (hx : IsNonneg x) (m : ℕ) (e : ℤ) (hm : 0 < m) :
    IsNonneg (UnpackedFloat.mul Format.binary64 x (.finite .positive m e hm)) := by
  cases hx with
  | zero s => cases s <;> exact .zero _
  | finite n d hn => exact .roundWithAccuracy _ _ _
  | infinity => exact .infinity

theorem zero_le_add {f g : Float} (hf : 0 ≤ f) (hg : 0 ≤ g) : 0 ≤ f + g := by
  rw [zero_le_iff] at hf hg ⊢
  rw [parts_add]
  exact (hf.add hg).unpack_pack

theorem zero_le_mul {f g : Float} (hf : 0 ≤ f) (hg : g.isFinite = true ∧ 0 < g) : 0 ≤ f * g := by
  obtain ⟨m, e, hm, hparts⟩ := finite_pos_iff.mp hg
  rw [zero_le_iff] at hf ⊢
  rw [parts_mul, hparts]
  exact (hf.mul_finite m e hm).unpack_pack

end TemplateCost.Double
