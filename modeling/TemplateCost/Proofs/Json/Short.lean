import TemplateCost.Proofs.Decimal.RoundTrip
import TemplateCost.Proofs.Json.Numbers

/-! # Doubles with few digits

The reader forms a double by two roundings: that of the digits and that of the scaled number. With few
digits the first is exact, and so is the power of ten. A double that is written with less than 2 ^ 53
in digits and with at most 22 places is therefore read back as it was.
-/
namespace TemplateCost.Json
open Decimal Double Float.Model

/-! ## Digits -/

theorem le_ofDigitChars (n : ℕ) (text : List Char) : n ≤ Nat.ofDigitChars 10 text n := by
  rw [Nat.ofDigitChars_eq_ofDigitChars_zero]
  exact (Nat.le_mul_of_pos_left n (Nat.pow_pos (by decide))).trans (Nat.le_add_right _ _)

theorem wholeSignificand_eq {n : ℕ} {text : List Char}
    (h : Nat.ofDigitChars 10 text n ≤ greatestSignificand) :
    wholeSignificand n text = (Nat.ofDigitChars 10 text n, 0) := by
  induction text generalizing n with
  | nil => rw [wholeSignificand, Nat.ofDigitChars_nil]
  | cons c rest ih =>
    rw [Nat.ofDigitChars_cons] at h ⊢
    rw [wholeSignificand, if_neg (Nat.not_lt.mpr ((le_ofDigitChars _ rest).trans h)), ih h]

theorem fractionSignificand_eq {n taken : ℕ} {text : List Char}
    (h : Nat.ofDigitChars 10 text n ≤ greatestSignificand) :
    fractionSignificand n taken text = (Nat.ofDigitChars 10 text n, taken + text.length) := by
  induction text generalizing n taken with
  | nil => rw [fractionSignificand, Nat.ofDigitChars_nil, List.length_nil, Nat.add_zero]
  | cons c rest ih =>
    rw [Nat.ofDigitChars_cons] at h ⊢
    rw [fractionSignificand, if_neg (Nat.not_lt.mpr ((le_ofDigitChars _ rest).trans h)), ih h, List.length_cons,
      Nat.add_right_comm, Nat.add_assoc]

/-- Digits that fit are all kept. -/
theorem float?_of_le (negative : Bool) {whole fraction : List Char} (exponent : ℤ)
    (h : digitsValue (whole ++ fraction) ≤ greatestSignificand) :
    float? negative whole fraction exponent =
      (scale? (Float.ofNat (digitsValue (whole ++ fraction))) (exponent - fraction.length)).map
        (negateIf negative) := by
  have happend : digitsValue (whole ++ fraction) =
      Nat.ofDigitChars 10 fraction (Nat.ofDigitChars 10 whole 0) := Nat.ofDigitChars_append 0
  rw [happend] at h
  have hplaces : ((0 : ℕ) : ℤ) - (0 + fraction.length : ℕ) + exponent = exponent - fraction.length := by omega
  rw [float?, wholeSignificand_eq ((le_ofDigitChars _ fraction).trans h)]
  dsimp only
  rw [fractionSignificand_eq h, happend]
  dsimp only
  rw [hplaces]

/-! ## Scaling -/

/-- One rounding, of the exact number. -/
theorem parts_scale? {n c : ℕ} {k i : ℤ} (hcanonical : IsCanonical n k) (hk : k ≤ 971) (hn : 0 < n)
    (hround : RoundsTo (c * 10 ^ i) n k) (hc : 0 < c) (hlt : c < 2 ^ 53) (hi : i.natAbs ≤ 22) :
    ∃ f, scale? (Float.ofNat c) i = some f ∧ parts f = .finite .positive n k hn := by
  have hsignificand := isExactly_ofNat hc hlt
  have hpower := isExactly_ofScientific_one hi
  rw [scale?, if_neg (by omega)]
  by_cases hneg : 0 ≤ i
  · have hproduct : (c : ℚ) * 10 ^ i = c * 10 ^ i.natAbs := by
      rw [← zpow_natCast, Int.natAbs_of_nonneg hneg]
    rw [hproduct] at hround
    have hparts := hsignificand.parts_mul hcanonical hk hn hpower hround
    have hnat : i.toNat = i.natAbs := by omega
    have hinf : (Float.ofNat c * powerOfTen i.toNat).isInf = false := by
      rw [powerOfTen, hnat]
      change (parts _).isInf = false
      rw [hparts]
      rfl
    rw [if_pos hneg]
    dsimp only
    rw [hinf, if_neg Bool.false_ne_true, hnat]
    exact ⟨_, rfl, hparts⟩
  · have hquotient : (c : ℚ) * 10 ^ i = c / 10 ^ i.natAbs := by
      rw [← zpow_natCast, Int.ofNat_natAbs_of_nonpos (by omega), zpow_neg, div_inv_eq_mul]
    rw [hquotient] at hround
    have hparts := hsignificand.parts_div hcanonical hk hn hpower hround
    have hnat : (-i).toNat = i.natAbs := by omega
    rw [if_neg hneg, if_pos (by omega), hnat]
    exact ⟨_, rfl, hparts⟩

/-! ## Reading back -/

/-- The digits of the text are exact as a double, and so is the power of ten that they are scaled by. -/
def IsShort (f : Float) : Prop :=
  ∀ b ∈ Binary64.ofFloat? f,
    let p := numberLayout.parts (shortest numberLayout.tie b)
    digitsValue (p.whole ++ p.fraction) < 2 ^ 53 ∧ (p.exponent - p.fraction.length).natAbs ≤ 22

instance (f : Float) : Decidable (IsShort f) :=
  inferInstanceAs (Decidable (∀ b ∈ Binary64.ofFloat? f,
    digitsValue ((numberLayout.parts (shortest numberLayout.tie b)).whole ++
        (numberLayout.parts (shortest numberLayout.tie b)).fraction) < 2 ^ 53 ∧
      ((numberLayout.parts (shortest numberLayout.tie b)).exponent -
        (numberLayout.parts (shortest numberLayout.tie b)).fraction.length).natAbs ≤ 22))

theorem ReadsBack.of_isShort {f : Float} (h : IsShort f) : ReadsBack f := by
  intro b hb
  rcases Nat.eq_zero_or_pos b.mantissa with hzero | hm
  · have hf : negateIf b.negative 0 = f := negateIf_eq hb (fun _ => rfl) fun hm => absurd hzero hm.ne'
    have hzeros : ReadsBack (negateIf b.negative 0) := by cases b.negative <;> decide +kernel
    exact (hf ▸ hzeros) b hb
  · obtain ⟨s, -, hparts⟩ := parts_of_ofFloat? hb hm
    obtain ⟨hc, he⟩ := isCanonical_of_parts hparts
    have hround := numberLayout.roundsTo_parts hc hm
    obtain ⟨hlt, hplaces⟩ := h b hb
    have hfits := hlt.le.trans (show 2 ^ 53 ≤ greatestSignificand by decide)
    obtain ⟨g, hscale, hg⟩ :=
      parts_scale? hc he hm hround (hround.significand_pos hm he) hlt hplaces
    dsimp only
    rw [float?_of_le _ _ hfits, hscale, Option.map_some,
      negateIf_eq hb (fun hzero => absurd hzero hm.ne') fun _ => hg]

end TemplateCost.Json
