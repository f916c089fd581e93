import TemplateCost.Proofs.Decimal.RoundTrip

/-! # The number of a double

A finite double stands for a rational number: its mantissa times a power of two, with its sign. That
number is whole iff cutting off the fraction leaves no remainder, and then it is what is left. Infinities and
what is not a number stand for none.
-/
namespace TemplateCost

namespace Decimal.Binary64
variable {b : Binary64}

/-- The number with its sign. -/
def number (b : Binary64) : ℚ := if b.negative then -b.absolute else b.absolute

theorem absolute_mul_denominator (b : Binary64) : b.absolute * b.denominator = b.numerator := by
  have hexponent : b.exponent + (-b.exponent).toNat = (b.exponent.toNat : ℤ) := by omega
  rw [absolute, denominator, numerator, Nat.pow_eq, Nat.pow_eq]
  push_cast
  rw [mul_assoc, ← zpow_natCast, ← zpow_natCast, ← zpow_add₀ two_ne_zero, hexponent]

theorem absolute_eq_natCast_iff {k : ℕ} :
    b.absolute = k ↔ b.isIntegral = true ∧ b.numerator / b.denominator = k := by
  have hdenominator : (b.denominator : ℚ) ≠ 0 := by exact_mod_cast b.denominator_pos.ne'
  rw [isIntegral, decide_eq_true_iff]
  constructor
  · intro h
    have hnumerator := b.absolute_mul_denominator
    rw [h] at hnumerator
    have hmul : k * b.denominator = b.numerator := by exact_mod_cast hnumerator
    rw [← hmul]
    exact ⟨Nat.mul_mod_left _ _, Nat.mul_div_cancel _ b.denominator_pos⟩
  · rintro ⟨hmod, rfl⟩
    have hmul : b.numerator / b.denominator * b.denominator = b.numerator :=
      Nat.div_mul_cancel (Nat.dvd_of_mod_eq_zero hmod)
    refine mul_right_cancel₀ hdenominator ?_
    rw [b.absolute_mul_denominator]
    exact_mod_cast hmul.symm

/-- A whole number is what truncation leaves of it. -/
theorem number_eq_intCast_iff {z : ℤ} : b.number = z ↔ b.isIntegral = true ∧ b.truncate = z := by
  have hpos : 0 ≤ b.absolute := by
    rw [absolute]
    positivity
  have habsolute := absolute_eq_natCast_iff (b := b) (k := z.natAbs)
  rw [Nat.cast_natAbs, Int.cast_abs] at habsolute
  rw [number, truncate]
  cases b.negative with
  | true =>
    rw [if_pos rfl, if_pos rfl]
    constructor
    · intro h
      have hz : (z : ℚ) ≤ 0 := by linarith
      obtain ⟨hwhole, hdiv⟩ := habsolute.mp (by rw [abs_of_nonpos hz, ← h, neg_neg])
      have hz' : z ≤ 0 := by exact_mod_cast hz
      exact ⟨hwhole, by omega⟩
    · rintro ⟨hwhole, rfl⟩
      have hk := absolute_eq_natCast_iff.mpr ⟨hwhole, rfl⟩
      rw [hk, Int.cast_neg, Int.cast_natCast]
  | false =>
    rw [if_neg Bool.false_ne_true, if_neg Bool.false_ne_true]
    constructor
    · intro h
      have hz : (0 : ℚ) ≤ z := by linarith
      obtain ⟨hwhole, hdiv⟩ := habsolute.mp (by rw [abs_of_nonneg hz, h])
      have hz' : 0 ≤ z := by exact_mod_cast hz
      exact ⟨hwhole, by omega⟩
    · rintro ⟨hwhole, rfl⟩
      have hk := absolute_eq_natCast_iff.mpr ⟨hwhole, rfl⟩
      rw [hk, Int.cast_natCast]

end Decimal.Binary64

namespace Double
open Float.Model Float.Model.UnpackedFloat Decimal
variable {f : Float} {x : ℚ}

/-- The number that a double stands for. -/
def number? (f : Float) : Option ℚ := (Binary64.ofFloat? f).map Binary64.number

def signFactor : Sign → ℚ
  | .negative => -1
  | .positive => 1

theorem signFactor_mul (s t : Sign) : signFactor (s * t) = signFactor s * signFactor t := by
  cases s <;> cases t
  · exact ((neg_mul_neg 1 1).trans (one_mul 1)).symm
  · exact (mul_one (-1)).symm
  · exact (one_mul (-1)).symm
  · exact (one_mul 1).symm

theorem number_mk (s : Sign) (m : ℕ) (e : ℤ) :
    (⟨isNegative s, m, e⟩ : Binary64).number = signFactor s * (m * 2 ^ e) := by
  cases s <;> simp [Binary64.number, Binary64.absolute, isNegative, signFactor]

/-- Parts that stand for the number. -/
inductive Denotes : UnpackedFloat → ℚ → Prop
  | zero (s : Sign) : Denotes (.zero s) 0
  | finite (s : Sign) (m : ℕ) (e : ℤ) (hm : 0 < m) :
      Denotes (.finite s m e hm) (signFactor s * (m * 2 ^ e))

theorem number?_eq_some_iff : number? f = some x ↔ Denotes (parts f) x := by
  rw [number?, ofFloat?_eq]
  cases parts f with
  | notANumber => exact iff_of_false nofun nofun
  | infinity s => exact iff_of_false nofun nofun
  | zero s =>
    have hzero : (⟨isNegative s, 0, Binary64.leastExponent⟩ : Binary64).number = 0 := by
      rw [number_mk, Nat.cast_zero, zero_mul, mul_zero]
    simp only [Option.map_some, hzero, Option.some.injEq]
    constructor
    · rintro rfl
      exact .zero s
    · rintro ⟨⟩
      rfl
  | finite s m e hm =>
    simp only [Option.map_some, number_mk, Option.some.injEq]
    constructor
    · rintro rfl
      exact .finite s m e hm
    · rintro ⟨⟩
      rfl

theorem isFinite_of_number? (h : number? f = some x) : f.isFinite = true := by
  rw [← isSome_ofFloat?, ← Option.isSome_map, ← number?, h, Option.isSome_some]

theorem exists_number? (h : f.isFinite = true) : ∃ x, number? f = some x := by
  rwa [← isSome_ofFloat?, ← Option.isSome_map, ← number?, Option.isSome_iff_exists] at h

end Double
end TemplateCost
