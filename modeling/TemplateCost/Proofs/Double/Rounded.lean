import TemplateCost.Proofs.Double.Number

/-! # Numbers rounded once

A number is rounded to one mantissa at one exponent, and to an infinity where the exponent is beyond the
greatest. So doubles that round the same number are equal, but for the sign of a zero. Whole numbers of 64
bits are rounded once when they are converted, and so is the product of a double and a whole number. Doubles
are whole multiples of the least one, and at its exponent such multiples are not rounded.
-/
namespace TemplateCost.Double
open Float.Model Float.Model.UnpackedFloat Decimal

variable {x y : ℚ} {m n : ℕ} {e k : ℤ}

/-! ## One mantissa and one exponent -/

theorem bound_le_full (h : e < k) : (2 : ℚ) ^ 53 * 2 ^ e ≤ 2 ^ 52 * 2 ^ k := by
  calc (2 : ℚ) ^ 53 * 2 ^ e = 2 ^ 52 * 2 ^ (e + 1) := by rw [zpow_add_one₀ two_ne_zero]; ring
    _ ≤ 2 ^ 52 * 2 ^ k := by gcongr <;> [exact one_le_two; omega]

/-- The same number with a mantissa of more bits. -/
theorem mul_zpow_of_le (h : k ≤ e) : (n : ℚ) * 2 ^ e = (n * 2 ^ (e - k).toNat : ℕ) * 2 ^ k := by
  push_cast
  rw [mul_assoc, ← zpow_natCast, Int.toNat_of_nonneg (by omega), ← zpow_add₀ two_ne_zero, sub_add_cancel]

theorem isNearest_self (n : ℕ) : IsNearest n n := isNearest_of_lt (by linarith) (by linarith)

theorem IsNearest.mono (hm : IsNearest x m) (hn : IsNearest y n) (h : x ≤ y) : m ≤ n := by
  by_contra hlt
  have hnext : (n : ℚ) + 1 ≤ m := by exact_mod_cast not_le.mp hlt
  have hlow := (abs_le.mp hm.near).1
  have hhigh := (abs_le.mp hn.near).2
  -- one half lies between each number and what it is nearest to, so the numbers are the same
  have hsame : x = y := by linarith
  rw [hsame] at hm
  exact hlt (hm.unique hn).le

theorem IsAt.mono (hx : IsAt x e) (hy : IsAt y k) (h : x ≤ y) : e ≤ k := by
  by_contra hlt
  have hleast := hy.least_le
  have hfull := hx.full.resolve_right (by omega)
  exact absurd (hy.lt.trans_le (bound_le_full (not_le.mp hlt))) (not_lt.mpr (hfull.trans h))

theorem IsAt.unique (h : IsAt x e) (h' : IsAt x k) : e = k :=
  le_antisymm (h.mono h' le_rfl) (h'.mono h le_rfl)

theorem RoundsTo.unique (h : RoundsTo x m e) (h' : RoundsTo x n k) (hm : m < 2 ^ 53) (hn : n < 2 ^ 53) :
    m = n ∧ e = k := by
  rcases h with ⟨hat, hnear⟩ | ⟨rfl, hat, hnear⟩ <;>
    rcases h' with ⟨hat', hnear'⟩ | ⟨rfl, hat', hnear'⟩ <;> have hexponent := hat.unique hat'
  · rw [hexponent] at hnear
    exact ⟨hnear.unique hnear', hexponent⟩
  · rw [hexponent] at hnear
    exact absurd (hnear.unique hnear') hm.ne
  · rw [← hexponent] at hnear'
    exact absurd (hnear'.unique hnear) hn.ne
  · exact ⟨rfl, by omega⟩

theorem isAt_cutExponent (hm : 0 < m) : IsAt (m * 2 ^ e) (cutExponent m e) := by
  have hscale : (0 : ℚ) < 2 ^ e := by positivity
  have hpower : ∀ (j : ℕ) (i : ℤ), (2 : ℚ) ^ j * 2 ^ i = 2 ^ ((j : ℤ) + i) := fun j i => by
    rw [zpow_add₀ two_ne_zero, zpow_natCast]
  refine ⟨le_max_right _ _, ?_, ?_⟩
  · have hlog : (m : ℚ) < 2 ^ (m.log2 + 1) := by exact_mod_cast Nat.lt_log2_self
    calc (m : ℚ) * 2 ^ e < 2 ^ (m.log2 + 1) * 2 ^ e := mul_lt_mul_of_pos_right hlog hscale
      _ ≤ 2 ^ 53 * 2 ^ cutExponent m e := by
        rw [hpower, hpower, cutExponent]
        exact zpow_le_zpow_right₀ one_le_two (by omega)
  · by_cases hcut : (m.log2 : ℤ) + e - 52 ≤ -1074
    · exact Or.inr (max_eq_right hcut)
    · have hlog : (2 : ℚ) ^ m.log2 ≤ m := by exact_mod_cast Nat.log2_self_le hm.ne'
      refine Or.inl ?_
      calc (2 : ℚ) ^ 52 * 2 ^ cutExponent m e = 2 ^ m.log2 * 2 ^ e := by
            rw [hpower, hpower, cutExponent]
            congr 1
            omega
        _ ≤ m * 2 ^ e := mul_le_mul_of_nonneg_right hlog hscale.le

/-- What is not below the least double has a mantissa to be rounded to. -/
theorem exists_roundsTo (hm : 0 < m) (hleast : -1074 ≤ m.log2 + e) (he : e ≤ cutExponent m e) :
    ∃ n k, 0 < n ∧ IsCanonical n k ∧ RoundsTo (m * 2 ^ e) n k := by
  have hat : IsAt (m * 2 ^ e) (cutExponent m e) := isAt_cutExponent hm
  generalize hk : cutExponent m e = k at hat he
  have hscale : (0 : ℚ) < 2 ^ k := by positivity
  obtain ⟨r, hnear⟩ : ∃ r, IsNearest (m * 2 ^ e / 2 ^ k) r := by
    have hshift : (m : ℚ) * 2 ^ e / 2 ^ k = m / 2 ^ (k - e).toNat := by
      rw [← zpow_natCast, Int.toNat_of_nonneg (by omega), zpow_sub₀ two_ne_zero, div_div_eq_mul_div]
    rw [hshift]
    exact ⟨_, ((IsCut.exact m).shiftRight (k - e).toNat).isNearest⟩
  have hlt := (div_lt_iff₀ hscale).mpr hat.lt
  have hle : r ≤ 2 ^ 53 := hnear.mono (isNearest_self (2 ^ 53)) (by exact_mod_cast hlt.le)
  have hge : ∀ j : ℕ, (j : ℚ) * 2 ^ k ≤ m * 2 ^ e → j ≤ r := by
    intro j hj
    exact (isNearest_self j).mono hnear ((le_div_iff₀ hscale).mpr hj)
  have hfull : 2 ^ 52 ≤ r ∨ k = -1074 := hat.full.imp_left fun h => hge _ (by exact_mod_cast h)
  have hpos : 0 < r := by
    rcases hfull with hfull | rfl
    · omega
    · refine hge 1 ?_
      have hlog : (2 : ℚ) ^ m.log2 ≤ m := by exact_mod_cast Nat.log2_self_le hm.ne'
      calc ((1 : ℕ) : ℚ) * 2 ^ (-1074 : ℤ) ≤ 2 ^ ((m.log2 : ℤ) + e) := by
            rw [Nat.cast_one, one_mul]
            exact zpow_le_zpow_right₀ one_le_two hleast
        _ = 2 ^ m.log2 * 2 ^ e := by rw [zpow_add₀ two_ne_zero, zpow_natCast]
        _ ≤ m * 2 ^ e := by gcongr
  rcases hle.lt_or_eq with hbelow | rfl
  · exact ⟨r, k, hpos, ⟨hbelow, hat.least_le, hfull⟩, Or.inl ⟨hat, hnear⟩⟩
  · refine ⟨2 ^ 52, k + 1, by decide, ⟨by decide, by have := hat.least_le; omega, Or.inl le_rfl⟩,
      Or.inr ⟨rfl, ?_⟩⟩
    rw [add_sub_cancel_right]
    exact ⟨hat, hnear⟩

/-- Multiples of the unit of the last place need no rounding. -/
theorem RoundsTo.eq_of_multiple {j : ℕ} (h : RoundsTo (j * 2 ^ k) n k) : n = j := by
  have hscale : (2 : ℚ) ^ k ≠ 0 := by positivity
  rcases h with ⟨-, hnear⟩ | ⟨rfl, -, hnear⟩
  · rw [mul_div_cancel_right₀ _ hscale] at hnear
    exact hnear.unique (isNearest_self j)
  · have htwice : (j : ℚ) * 2 ^ k / 2 ^ (k - 1) = (2 * j : ℕ) := by
      rw [zpow_sub_one₀ two_ne_zero]
      push_cast
      field_simp
    rw [htwice] at hnear
    have := hnear.unique (isNearest_self (2 * j))
    omega

/-- A whole number is rounded to a whole number. -/
theorem RoundsTo.exists_whole {j : ℕ} (h : RoundsTo j n k) : ∃ i : ℕ, (n : ℚ) * 2 ^ k = i := by
  by_cases hk : 0 ≤ k
  · refine ⟨n * 2 ^ k.toNat, ?_⟩
    push_cast
    rw [← zpow_natCast, Int.toNat_of_nonneg hk]
  · have hmultiple : (j : ℚ) = (j * 2 ^ (0 - k).toNat : ℕ) * 2 ^ k := by
      rw [← mul_zpow_of_le (by omega), zpow_zero, mul_one]
    rw [hmultiple] at h
    exact ⟨j, by rw [h.eq_of_multiple, ← hmultiple]⟩

/-! ## Rounded numbers -/

/-- The parts are those of the double that the number is rounded to. -/
inductive IsRounded : ℚ → UnpackedFloat → Prop
  | zero (s : Sign) : IsRounded 0 (.zero s)
  | finite (s : Sign) {x : ℚ} {n : ℕ} {k : ℤ} (hn : 0 < n) (hx : 0 < x) (hc : IsCanonical n k)
      (hk : k ≤ 971) (hround : RoundsTo x n k) : IsRounded (signFactor s * x) (.finite s n k hn)
  | infinity (s : Sign) {x : ℚ} {n : ℕ} {k : ℤ} (hx : 0 < x) (hc : IsCanonical n k)
      (hk : 971 < k) (hround : RoundsTo x n k) : IsRounded (signFactor s * x) (.infinity s)

theorem signFactor_mul_ne_zero (s : Sign) (hx : 0 < x) : signFactor s * x ≠ 0 := by
  cases s <;> simp [signFactor, hx.ne']

theorem signFactor_mul_inj {s t : Sign} (hx : 0 < x) (hy : 0 < y)
    (h : signFactor s * x = signFactor t * y) : s = t ∧ x = y := by
  cases s <;> cases t <;> simp only [signFactor, neg_one_mul, one_mul, neg_inj] at h
  · exact ⟨rfl, h⟩
  · linarith
  · linarith
  · exact ⟨rfl, h⟩

namespace IsRounded
variable {p q : UnpackedFloat}

theorem exists_zero (h : IsRounded x p) (hx : x = 0) : ∃ s, p = .zero s := by
  cases h with
  | zero s => exact ⟨s, rfl⟩
  | finite s hn hpos => exact absurd hx (signFactor_mul_ne_zero s hpos)
  | infinity s hpos => exact absurd hx (signFactor_mul_ne_zero s hpos)

theorem unique (hp : IsRounded x p) (hq : IsRounded x q) (hx : x ≠ 0) : p = q := by
  cases hp with
  | zero s => exact absurd rfl hx
  | finite s hn hpos hc hk hround =>
    generalize hz : signFactor s * _ = z at hq
    cases hq with
    | zero t => exact absurd hz hx
    | finite t hn' hpos' hc' hk' hround' =>
      obtain ⟨rfl, rfl⟩ := signFactor_mul_inj hpos hpos' hz
      obtain ⟨rfl, rfl⟩ := hround.unique hround' hc.lt hc'.lt
      rfl
    | infinity t hpos' hc' hk' hround' =>
      obtain ⟨rfl, rfl⟩ := signFactor_mul_inj hpos hpos' hz
      obtain ⟨-, rfl⟩ := hround.unique hround' hc.lt hc'.lt
      omega
  | infinity s hpos hc hk hround =>
    generalize hz : signFactor s * _ = z at hq
    cases hq with
    | zero t => exact absurd hz hx
    | finite t hn' hpos' hc' hk' hround' =>
      obtain ⟨rfl, rfl⟩ := signFactor_mul_inj hpos hpos' hz
      obtain ⟨-, rfl⟩ := hround.unique hround' hc.lt hc'.lt
      omega
    | infinity t hpos' hc' hk' hround' =>
      obtain ⟨rfl, rfl⟩ := signFactor_mul_inj hpos hpos' hz
      rfl

theorem of_number? {f : Float} (h : number? f = some x) : IsRounded x (parts f) := by
  rw [number?_eq_some_iff] at h
  generalize hparts : parts f = p at h
  cases h with
  | zero s => exact .zero s
  | finite s m e hm =>
    obtain ⟨hc, he⟩ := isCanonical_of_parts hparts
    exact .finite s hm (by positivity) hc he (RoundsTo.self hc)

end IsRounded

theorem eq_of_parts {f g : Float} (hf : number? f = some x) (h : parts f = parts g) : f = g := by
  have hsame : Binary64.ofFloat? f = Binary64.ofFloat? g := by rw [ofFloat?_eq, ofFloat?_eq, h]
  obtain ⟨b, hb, -⟩ := Option.map_eq_some_iff.mp hf
  exact Binary64.eq_of_ofFloat? hb (hsame ▸ hb)

/-- No two doubles but the zeros stand for the same number. -/
theorem eq_of_number? {f g : Float} (hf : number? f = some x) (hg : number? g = some x) (hx : x ≠ 0) :
    f = g :=
  eq_of_parts hf ((IsRounded.of_number? hf).unique (.of_number? hg) hx)

theorem isRounded_round (hm : 0 < m) (hleast : -1074 ≤ m.log2 + e) (he : e ≤ cutExponent m e) (s : Sign) :
    IsRounded (signFactor s * (m * 2 ^ e))
      (Float.Model.pack (roundWithAccuracy Format.binary64 s m e .exact)).unpack := by
  obtain ⟨n, k, hn, hc, hround⟩ := exists_roundsTo hm hleast he
  have hpos : (0 : ℚ) < m * 2 ^ e := by positivity
  rw [roundWithAccuracy_of_roundsTo (IsCut.exact m) he hround hc.lt s hn]
  by_cases hk : k ≤ 971
  · rw [unpack_pack_finite hc hk s hn]
    exact .finite s hn hpos hc hk hround
  · rw [unpack_pack_infinity (by omega) s hn]
    exact .infinity s hpos hc (by omega) hround

/-! ## Whole numbers -/

theorem number?_ofNat {j : ℕ} (h : j < 2 ^ 53) : number? (Float.ofNat j) = some (j : ℚ) := by
  rw [number?_eq_some_iff]
  rcases Nat.eq_zero_or_pos j with rfl | hj
  · rw [Nat.cast_zero]
    exact .zero .positive
  · obtain ⟨m, e, hm, hparts, -, hvalue⟩ := isExactly_ofNat hj h
    rw [hparts, ← hvalue, ← one_mul ((m : ℚ) * 2 ^ e)]
    exact .finite .positive m e hm

theorem isRounded_ofNat {j : ℕ} (h : j < 2 ^ 64) : IsRounded j (parts (Float.ofNat j)) := by
  by_cases hsmall : j < 2 ^ 53
  · exact .of_number? (number?_ofNat hsmall)
  · have hj : 0 < j := by omega
    have hlog : (j * 2 ^ 53).log2 = j.log2 + 53 := log2_mul_two_pow hj 53
    have hbits : 53 ≤ j.log2 := (Nat.le_log2 hj.ne').mpr (not_lt.mp hsmall)
    have hvalue : (j : ℚ) = signFactor .positive * ((j * 2 ^ 53 : ℕ) * 2 ^ (-53 : ℤ)) := by
      rw [signFactor, one_mul, Nat.cast_mul, mul_assoc]
      norm_num
    rw [parts_ofNat_of_le hj (not_lt.mp hsmall), hvalue]
    refine isRounded_round (Nat.mul_pos hj (Nat.two_pow_pos 53)) (by omega) ?_ .positive
    rw [cutExponent]
    omega

theorem number?_neg {f : Float} (h : number? f = some x) : number? (-f) = some (-x) := by
  rw [number?_eq_some_iff] at h ⊢
  have hneg : parts (-f) = (Float.Model.pack (parts f).neg).unpack := rfl
  rw [hneg]
  generalize hparts : parts f = p at h ⊢
  cases h with
  | zero s =>
    rw [neg_zero]
    cases s <;> exact .zero _
  | finite s m e hm =>
    obtain ⟨hc, he⟩ := isCanonical_of_parts hparts
    have hsign : -(signFactor s * ((m : ℚ) * 2 ^ e)) = signFactor (-s) * (m * 2 ^ e) := by
      cases s
      · exact (neg_mul _ _).symm.trans (by rw [signFactor, neg_neg]; rfl)
      · exact (neg_mul _ _).symm
    rw [UnpackedFloat.neg, unpack_pack_finite hc he (-s) hm, hsign]
    exact .finite (-s) m e hm

theorem exists_whole_ofNat {j : ℕ} (h : j < 2 ^ 64) :
    ∃ i : ℕ, number? (Float.ofNat j) = some (i : ℚ) := by
  by_cases hsmall : j < 2 ^ 53
  · exact ⟨j, number?_ofNat hsmall⟩
  · obtain ⟨m, e, hm, hparts⟩ := parts_ofNat (show 0 < j by omega) h
    have hrounded := isRounded_ofNat h
    rw [hparts] at hrounded
    generalize hj : (j : ℚ) = x at hrounded
    cases hrounded with
    | finite s hn hx hc hk hround =>
      rw [signFactor, one_mul] at hj
      rw [← hj] at hround
      obtain ⟨i, hi⟩ := hround.exists_whole
      refine ⟨i, ?_⟩
      rw [number?_eq_some_iff, hparts, ← hi, ← one_mul ((m : ℚ) * 2 ^ e)]
      exact .finite .positive m e hm

/-- A whole number becomes a whole number when it is converted. -/
theorem exists_whole_ofInt {i : ℤ} (h : i.natAbs < 2 ^ 64) :
    ∃ z : ℤ, number? (Float.ofInt i) = some (z : ℚ) := by
  cases i with
  | ofNat j =>
    obtain ⟨k, hk⟩ := exists_whole_ofNat h
    exact ⟨k, by rw [Int.cast_natCast]; exact hk⟩
  | negSucc j =>
    obtain ⟨k, hk⟩ := exists_whole_ofNat h
    exact ⟨-k, by rw [Int.cast_neg, Int.cast_natCast]; exact number?_neg hk⟩

/-- A whole number that is a double already is found again. -/
theorem ofNat_of_number? {f : Float} {j : ℕ} (hf : number? f = some (j : ℚ)) (hj : 0 < j)
    (h : j < 2 ^ 64) : Float.ofNat j = f := by
  have hpos : (j : ℚ) ≠ 0 := by exact_mod_cast hj.ne'
  exact (eq_of_parts hf ((IsRounded.of_number? hf).unique (isRounded_ofNat h) hpos)).symm

/-! ## Products with whole numbers -/

theorem full_of_one_le (hc : IsCanonical n k) (h : 1 ≤ (n : ℚ) * 2 ^ k) : 2 ^ 52 ≤ n ∧ -52 ≤ k := by
  have hk : -52 ≤ k := by
    by_contra hlow
    have hlt : (n : ℚ) < 2 ^ 53 := by exact_mod_cast hc.lt
    have hbelow : (n : ℚ) * 2 ^ k < 1 := by
      calc (n : ℚ) * 2 ^ k < 2 ^ 53 * 2 ^ k := mul_lt_mul_of_pos_right hlt (by positivity)
        _ ≤ 2 ^ 53 * 2 ^ (-53 : ℤ) := by gcongr <;> [exact one_le_two; omega]
        _ = 1 := by norm_num
    exact absurd h (not_le.mpr hbelow)
  exact ⟨hc.full.resolve_right (by omega), hk⟩

theorem IsRounded.pack_zero (s : Sign) : IsRounded 0 (Float.Model.pack (.zero s)).unpack := by
  cases s <;> exact .zero _

/-- The product of a double and a whole number is rounded once, however small the double is. -/
theorem isRounded_mul {f g : Float} {z : ℤ} (hf : number? f = some x) (hg : number? g = some (z : ℚ)) :
    IsRounded (x * z) (parts (f * g)) := by
  rw [number?_eq_some_iff] at hf hg
  rw [parts_mul]
  generalize hfparts : parts f = p at hf ⊢
  generalize hgparts : parts g = q at hg ⊢
  generalize hw : (z : ℚ) = w at hg ⊢
  cases hf with
  | zero s =>
    rw [zero_mul]
    cases hg with
    | zero t => exact .pack_zero (s * t)
    | finite t n d hn => exact .pack_zero (s * t)
  | finite s m e hm =>
    cases hg with
    | zero t =>
      rw [mul_zero]
      exact .pack_zero (s * t)
    | finite t n d hn =>
      obtain ⟨⟨-, hleast, -⟩, -⟩ := isCanonical_of_parts hfparts
      obtain ⟨hc, -⟩ := isCanonical_of_parts hgparts
      have hone : 1 ≤ (n : ℚ) * 2 ^ d := by
        have hz : z ≠ 0 := by
          rintro rfl
          exact signFactor_mul_ne_zero t (by positivity) (hw.symm.trans Int.cast_zero)
        have habs : |(z : ℚ)| = n * 2 ^ d := by
          rw [hw, abs_mul, abs_of_pos (show (0 : ℚ) < n * 2 ^ d by positivity)]
          cases t <;> simp [signFactor]
        rw [← habs]
        exact_mod_cast Int.one_le_abs hz
      obtain ⟨hfull, hd⟩ := full_of_one_le hc hone
      have hlog : 52 ≤ (m * n).log2 :=
        (Nat.le_log2 (Nat.mul_pos hm hn).ne').mpr (hfull.trans (Nat.le_mul_of_pos_left n hm))
      have hproduct : signFactor s * (m * 2 ^ e) * (signFactor t * (n * 2 ^ d)) =
          signFactor (s * t) * ((m * n : ℕ) * 2 ^ (e + d)) := by
        rw [signFactor_mul, zpow_add₀ two_ne_zero]
        push_cast
        ring
      rw [hproduct]
      refine isRounded_round (Nat.mul_pos hm hn) (by omega) ?_ (s * t)
      rw [cutExponent]
      omega

theorem isFinite_of_unpack_pack {p : UnpackedFloat}
    (h : (Float.Model.pack p).unpack.isFinite = true) : p.isFinite = true := by
  cases p with
  | zero s => rfl
  | finite s => rfl
  | notANumber => exact absurd h (by decide)
  | infinity s => cases s <;> exact absurd h (by decide)

theorem isFinite_of_mul {f g : Float} (h : (f * g).isFinite = true) : f.isFinite = true := by
  rw [isFinite_eq, parts_mul] at h
  rw [isFinite_eq]
  have hproduct := isFinite_of_unpack_pack h
  generalize parts f = p at hproduct ⊢
  generalize parts g = q at hproduct
  cases p with
  | zero s => rfl
  | finite s => rfl
  | notANumber => cases hproduct
  | infinity s => cases q <;> cases hproduct

/-- No product with an infinity, or with what is not a number, is finite. -/
theorem exists_number?_of_mul {f g : Float} (h : number? (f * g) = some y) : ∃ x, number? f = some x :=
  exists_number? (isFinite_of_mul (isFinite_of_number? h))

/-! ## Multiples of the least double -/

/-- A whole multiple of the least positive double. -/
def IsMultiple (x : ℚ) : Prop := ∃ i : ℤ, x = i * 2 ^ (-1074 : ℤ)

theorem IsMultiple.mul_intCast (h : IsMultiple x) (z : ℤ) : IsMultiple (x * z) := by
  obtain ⟨i, rfl⟩ := h
  exact ⟨i * z, by rw [Int.cast_mul, mul_right_comm]⟩

theorem isMultiple_signFactor_mul_iff {s : Sign} : IsMultiple (signFactor s * x) ↔ IsMultiple x := by
  cases s with
  | positive => rw [signFactor, one_mul]
  | negative =>
    rw [signFactor, neg_one_mul]
    constructor
    · rintro ⟨i, hi⟩
      exact ⟨-i, by rw [Int.cast_neg, neg_mul, ← hi, neg_neg]⟩
    · rintro ⟨i, rfl⟩
      exact ⟨-i, by rw [Int.cast_neg, neg_mul]⟩

theorem isMultiple_of_number? {f : Float} (h : number? f = some x) : IsMultiple x := by
  rw [number?_eq_some_iff] at h
  generalize hparts : parts f = p at h
  cases h with
  | zero s => exact ⟨0, by rw [Int.cast_zero, zero_mul]⟩
  | finite s m e hm =>
    obtain ⟨⟨-, hleast, -⟩, -⟩ := isCanonical_of_parts hparts
    rw [isMultiple_signFactor_mul_iff, mul_zpow_of_le hleast]
    exact ⟨(m * 2 ^ (e - -1074).toNat : ℕ), by rw [Int.cast_natCast]⟩

/-- At the least exponent multiples are not rounded. -/
theorem RoundsTo.eq_of_isMultiple (h : RoundsTo x n (-1074)) (hx : 0 < x) (hmultiple : IsMultiple x) :
    n * 2 ^ (-1074 : ℤ) = x := by
  obtain ⟨i, rfl⟩ := hmultiple
  have hi : 0 < i := by exact_mod_cast pos_of_mul_pos_left hx (by positivity)
  lift i to ℕ using hi.le
  rw [Int.cast_natCast] at h ⊢
  rw [h.eq_of_multiple]

end TemplateCost.Double
