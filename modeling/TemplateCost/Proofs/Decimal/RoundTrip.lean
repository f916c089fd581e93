import TemplateCost.Proofs.Decimal.Reading
import TemplateCost.Proofs.Decimal.Shortest

/-! # Decimals read back as their double

However the shortest decimal of a double is laid out, its digits stand for the same number. As that number
lies in the interval of the double and a decimal is rounded once when it is read, it is read as the double
that it was written for, bit for bit.
-/
namespace TemplateCost.Decimal
open Double Float.Model

/-! ## The number that parts stand for -/

theorem digitsValue_append (front back : List Char) :
    digitsValue (front ++ back) = 10 ^ back.length * digitsValue front + digitsValue back :=
  (Nat.ofDigitChars_append 0).trans Nat.ofDigitChars_eq_ofDigitChars_zero

theorem digitsValue_zeros (n : ℕ) : digitsValue (List.replicate n '0') = 0 :=
  Nat.ofDigitChars_replicate_zero.trans (Nat.mul_zero _)

def Parts.number (p : Parts) : ℚ :=
  digitsValue (p.whole ++ p.fraction) * 10 ^ (p.exponent - p.fraction.length)

/-- Zeros after the point change nothing. -/
theorem number_zeros (whole : List Char) (n : ℕ) :
    (⟨whole, List.replicate n '0', 0⟩ : Parts).number = digitsValue whole := by
  rw [Parts.number, digitsValue_append, digitsValue_zeros, List.length_replicate, zero_sub, zpow_neg,
    zpow_natCast]
  push_cast
  field_simp
  ring

theorem number_positionalParts (wholePoint : Bool) (d : Digits) :
    (positionalParts wholePoint d).number = d.number := by
  have hvalue := digitsValue_toDigits d.significand
  have hplaces : d.exponent < 0 → (0 : ℤ) - ((-d.exponent).toNat : ℤ) = d.exponent := by omega
  rw [Digits.number, positionalParts]
  split
  · rename_i hexponent
    have hpoint : (if wholePoint then ['0'] else []) = List.replicate (if wholePoint then 1 else 0) '0' := by
      cases wholePoint <;> rfl
    rw [hpoint, number_zeros, digitsValue_append, hvalue]
    split
    · rename_i hzero
      simp [hzero, digitsValue]
    · rw [digitsValue_zeros, List.length_replicate, add_zero]
      push_cast
      rw [← zpow_natCast, Int.toNat_of_nonneg hexponent, mul_comm]
  · rename_i hexponent
    split
    · rename_i hlength
      have hdigits : digitsValue (['0'] ++ (List.replicate ((-d.exponent).toNat -
          (Nat.toDigits 10 d.significand).length) '0' ++ Nat.toDigits 10 d.significand)) = d.significand := by
        have hfirst : digitsValue ['0'] = 0 := rfl
        rw [digitsValue_append, digitsValue_append, digitsValue_zeros, hvalue, hfirst]
        simp only [Nat.mul_zero, Nat.zero_add]
      rw [Parts.number, hdigits, List.length_append, List.length_replicate, Nat.sub_add_cancel hlength,
        hplaces (by omega)]
    · rename_i hlength
      rw [Parts.number, List.take_append_drop, hvalue, List.length_drop, Nat.sub_sub_self (by omega),
        hplaces (by omega)]

theorem number_scientificParts (d : Digits) : (scientificParts d).number = d.number := by
  have hlength : 0 < (Nat.toDigits 10 d.significand).length := Nat.length_toDigits_pos
  rw [Parts.number, scientificParts, Digits.number]
  dsimp only
  rw [List.take_append_drop, digitsValue_toDigits, List.length_drop]
  congr 2
  omega

theorem Layout.number_parts (layout : Layout) (d : Digits) : (layout.parts d).number = d.number := by
  rw [Layout.parts]
  split
  · exact number_positionalParts _ d
  · exact number_scientificParts d

/-! ## Doubles of the same parts -/

theorem eq_of_toBits {f g : Float} (h : f.toBits.toNat = g.toBits.toNat) : f = g := by
  obtain ⟨⟨bits, hf⟩⟩ := f
  obtain ⟨⟨bits', hg⟩⟩ := g
  obtain rfl : bits = bits' := UInt64.toNat_inj.mp h
  rfl

/-- Sign, mantissa and exponent determine the bits. -/
theorem Binary64.eq_of_ofFloat? {f g : Float} {b : Binary64} (hf : Binary64.ofFloat? f = some b)
    (hg : Binary64.ofFloat? g = some b) : f = g := by
  have hlt := f.toBits.toNat_lt
  have hlt' := g.toBits.toNat_lt
  refine eq_of_toBits ?_
  rw [Binary64.ofFloat?] at hf hg
  split at hf
  · cases hf
  split at hg
  · cases hg
  split at hf <;> split at hg <;>
    · cases hf
      simp only [Option.some.injEq, Binary64.mk.injEq, decide_eq_decide, smallestNormal,
        leastExponent] at hg
      omega

theorem parts_neg {f : Float} {m : ℕ} {e : ℤ} {hm : 0 < m} (h : parts f = .finite .positive m e hm) :
    parts (-f) = .finite .negative m e hm := by
  obtain ⟨hc, he⟩ := isCanonical_of_parts h
  have hparts : parts (-f) = (Float.Model.pack (parts f).neg).unpack := rfl
  rw [hparts, h]
  exact unpack_pack_finite hc he .negative hm

/-! ## Reading back -/

theorem ofFloat?_negateIf_zero (negative : Bool) :
    Binary64.ofFloat? (negateIf negative 0) = some ⟨negative, 0, Binary64.leastExponent⟩ := by
  cases negative <;> rfl

theorem ofFloat?_negateIf {f : Float} {m : ℕ} {e : ℤ} {hm : 0 < m} (h : parts f = .finite .positive m e hm)
    (negative : Bool) : Binary64.ofFloat? (negateIf negative f) = some ⟨negative, m, e⟩ := by
  rw [ofFloat?_eq]
  cases negative with
  | false =>
    rw [negateIf, if_neg (by decide), h]
    rfl
  | true =>
    rw [negateIf, if_pos rfl, parts_neg h]
    rfl

/-- A double without a mantissa is a zero, and has the least exponent. -/
theorem exponent_of_ofFloat? {f : Float} {b : Binary64} (h : Binary64.ofFloat? f = some b)
    (hzero : b.mantissa = 0) : b.exponent = Binary64.leastExponent := by
  rw [ofFloat?_eq] at h
  cases hparts : parts f with
  | zero s =>
    rw [hparts] at h
    cases h
    rfl
  | finite s m e hm =>
    rw [hparts] at h
    cases h
    exact absurd hzero hm.ne'
  | infinity s =>
    rw [hparts] at h
    cases h
  | notANumber =>
    rw [hparts] at h
    cases h

/-- A double is found again from the number without its sign. -/
theorem negateIf_eq {f g : Float} {b : Binary64} (h : Binary64.ofFloat? f = some b)
    (hzero : b.mantissa = 0 → g = 0)
    (hpos : ∀ hm : 0 < b.mantissa, parts g = .finite .positive b.mantissa b.exponent hm) :
    negateIf b.negative g = f := by
  refine Binary64.eq_of_ofFloat? (b := b) ?_ h
  rcases Nat.eq_zero_or_pos b.mantissa with hnone | hm
  · have hleast := exponent_of_ofFloat? h hnone
    obtain ⟨negative, m, e⟩ := b
    cases hnone
    cases hleast
    rw [hzero rfl]
    exact ofFloat?_negateIf_zero negative
  · exact ofFloat?_negateIf (hpos hm) b.negative

/-- What a layout writes is rounded to the double. -/
theorem Layout.roundsTo_parts (layout : Layout) {b : Binary64} (hc : IsCanonical b.mantissa b.exponent)
    (hm : 0 < b.mantissa) :
    RoundsTo (layout.parts (shortest layout.tie b)).number b.mantissa b.exponent := by
  rw [layout.number_parts]
  exact (shortest_owns hm hc.lt layout.tie).roundsTo hc hm

/-- What is read for the shortest decimal of a double, in any layout, is the double. -/
theorem Layout.value_parts (layout : Layout) {f : Float} {b : Binary64} (h : Binary64.ofFloat? f = some b) :
    negateIf b.negative (layout.parts (shortest layout.tie b)).value = f := by
  refine negateIf_eq h (fun hzero => ?_) fun hm => ?_
  · have hnumber : (layout.parts (shortest layout.tie b)).number = 0 := by
      rw [layout.number_parts, shortest, if_pos hzero]
      exact zero_mul _
    rw [Parts.number, mul_eq_zero_iff_right (by positivity), Nat.cast_eq_zero] at hnumber
    rw [Parts.value, hnumber]
    rfl
  · obtain ⟨s, -, hparts⟩ := parts_of_ofFloat? h hm
    obtain ⟨hc, he⟩ := isCanonical_of_parts hparts
    exact parts_nearest hc he hm (layout.roundsTo_parts hc hm)

/-- A finite double is read back from its text in positional notation. -/
theorem Layout.readFloat?_text {layout : Layout} (hpositional : layout.positional = none)
    (hpoint : layout.wholePoint = true) {f : Float} {b : Binary64} (hb : Binary64.ofFloat? f = some b) :
    readFloat? (layout.text f).toList = some f := by
  rw [layout.readFloat?_parts hpositional hpoint hb, layout.value_parts hb]

end TemplateCost.Decimal
