import TemplateCost.Proofs.Double.Rounded

/-! # Numbers rounded alike

Doubles are equal iff the numbers that they have been rounded from are rounded alike. A number and the
double that it is rounded to are rounded alike when both are doubled, and a double that is doubled needs no
rounding.
-/
namespace TemplateCost.Double
open Float.Model Float.Model.UnpackedFloat

variable {x y : ℚ} {m n : ℕ} {i k : ℤ} {f g : Float} {s : Sign} {p q : UnpackedFloat}

/-- Both numbers are rounded to the same double. -/
def RoundAlike (x y : ℚ) : Prop := ∃ p, IsRounded x p ∧ IsRounded y p

theorem beq_iff : (f == g) = true ↔ UnpackedFloat.compare (parts f) (parts g) = some .eq := by
  change (UnpackedFloat.compare (parts f) (parts g) == some .eq) = true ↔ _
  rw [beq_iff_eq]

theorem IsRounded.compare_eq (hp : IsRounded x p) (hq : IsRounded x q) :
    UnpackedFloat.compare p q = some .eq := by
  by_cases hx : x = 0
  · obtain ⟨s, rfl⟩ := hp.exists_zero hx
    obtain ⟨t, rfl⟩ := hq.exists_zero hx
    rfl
  · obtain rfl := hp.unique hq hx
    cases hp with
    | zero s => rfl
    | infinity s => cases s <;> rfl
    | finite s => cases s <;> simp [UnpackedFloat.compare]

theorem eq_or_zeros_of_compare (h : UnpackedFloat.compare p q = some .eq) :
    p = q ∨ ∃ s t, p = .zero s ∧ q = .zero t := by
  cases p with
  | notANumber => cases h
  | zero s =>
    cases q with
    | zero t => exact Or.inr ⟨s, t, rfl, rfl⟩
    | notANumber => cases h
    | infinity t => cases t <;> cases h
    | finite t => cases t <;> cases h
  | infinity s =>
    cases q with
    | infinity t => cases s <;> cases t <;> first | exact Or.inl rfl | cases h
    | notANumber => cases h
    | zero t => cases s <;> cases h
    | finite t => cases s <;> cases h
  | finite s m e hm =>
    cases q with
    | notANumber => cases h
    | zero t => cases s <;> cases h
    | infinity t => cases s <;> cases t <;> cases h
    | finite t n d hn =>
      left
      cases s <;> cases t <;>
        simp [UnpackedFloat.compare, Ordering.then_eq_eq] at h ⊢ <;> exact h.symm

theorem beq_iff_roundAlike (hx : IsRounded x (parts f)) (hy : IsRounded y (parts g)) :
    (f == g) = true ↔ RoundAlike x y := by
  rw [beq_iff]
  constructor
  · intro h
    rcases eq_or_zeros_of_compare h with hparts | ⟨s, t, hs, ht⟩
    · exact ⟨_, hx, hparts ▸ hy⟩
    · rw [hs] at hx
      rw [ht] at hy
      cases hx
      cases hy
      exact ⟨.zero s, .zero s, .zero s⟩
  · rintro ⟨p, hp, hq⟩
    by_cases hzero : x = 0
    · obtain ⟨t, ht⟩ := hx.exists_zero hzero
      obtain ⟨s, rfl⟩ := hp.exists_zero hzero
      cases hq
      obtain ⟨t', ht'⟩ := hy.exists_zero rfl
      rw [ht, ht']
      rfl
    · rw [hx.unique hp hzero]
      exact hq.compare_eq hy

/-! ## Powers of two -/

/-- What fits into 53 bits is not rounded. -/
theorem RoundsTo.eq_self (h : RoundsTo (n * 2 ^ i) m k) (hn : n < 2 ^ 53) (hi : -1074 ≤ i) :
    (m : ℚ) * 2 ^ k = n * 2 ^ i := by
  have hle : ∀ e, IsAt (n * 2 ^ i) e → e ≤ i := by
    intro e hat
    rcases hat.full with hfull | rfl
    · by_contra hlt
      have hbits : (n : ℚ) < 2 ^ 53 := by exact_mod_cast hn
      have hbelow : (n : ℚ) * 2 ^ i < 2 ^ 53 * 2 ^ i := mul_lt_mul_of_pos_right hbits (by positivity)
      exact absurd (hbelow.trans_le (bound_le_full (not_le.mp hlt))) (not_lt.mpr hfull)
    · exact hi
  rcases h with ⟨hat, hnear⟩ | ⟨rfl, hat, hnear⟩
  · have hself : (n : ℚ) * 2 ^ i = _ := mul_zpow_of_le (hle k hat)
    rw [hself] at hat hnear ⊢
    rw [RoundsTo.eq_of_multiple (Or.inl ⟨hat, hnear⟩)]
  · -- there is nothing to carry, since the mantissa at the exponent below is exact
    have hscale : (0 : ℚ) < 2 ^ (k - 1) := by positivity
    have hlt := (div_lt_iff₀ hscale).mpr hat.lt
    rw [mul_zpow_of_le (hle (k - 1) hat), mul_div_cancel_right₀ _ hscale.ne'] at hnear hlt
    rw [← hnear.unique (isNearest_self _)] at hlt
    norm_num at hlt

theorem IsAt.mul_two_pow (h : IsAt x k) (hfull : 2 ^ 52 * 2 ^ k ≤ x) (j : ℕ) :
    IsAt (x * 2 ^ j) (k + j) := by
  have hpower : (2 : ℚ) ^ (k + j) = 2 ^ k * 2 ^ j := by rw [zpow_add₀ two_ne_zero, zpow_natCast]
  refine ⟨by have := h.least_le; omega, ?_, Or.inl ?_⟩
  · rw [hpower, ← mul_assoc]
    exact mul_lt_mul_of_pos_right h.lt (by positivity)
  · rw [hpower, ← mul_assoc]
    exact mul_le_mul_of_nonneg_right hfull (by positivity)

theorem div_zpow_add (x : ℚ) (k : ℤ) (j : ℕ) : x * 2 ^ j / 2 ^ (k + j) = x / 2 ^ k := by
  rw [zpow_add₀ two_ne_zero, zpow_natCast, mul_div_mul_right _ _ (by positivity)]

theorem RoundsTo.mul_two_pow (h : RoundsTo x n k) (hk : k ≠ -1074) (j : ℕ) :
    RoundsTo (x * 2 ^ j) n (k + j) := by
  rcases h with ⟨hat, hnear⟩ | ⟨rfl, hat, hnear⟩
  · refine Or.inl ⟨hat.mul_two_pow (hat.full.resolve_right hk) j, ?_⟩
    rwa [div_zpow_add]
  · have hexponent : k + j - 1 = k - 1 + j := by ring
    have hfull : (2 : ℚ) ^ 52 ≤ x / 2 ^ (k - 1) := by
      have hlow := (abs_le.mp hnear.near).1
      push_cast at hlow
      linarith
    rw [le_div_iff₀ (by positivity)] at hfull
    refine Or.inr ⟨rfl, ?_, ?_⟩
    · rw [hexponent]
      exact hat.mul_two_pow hfull j
    · rwa [hexponent, div_zpow_add]

theorem IsRounded.of_roundsTo (hx : 0 < x) (hy : 0 < y)
    (h : ∀ m i, m < 2 ^ 53 → RoundsTo x m i → RoundsTo y m i) (hq : IsRounded (signFactor s * x) q) :
    IsRounded (signFactor s * y) q := by
  generalize hz : signFactor s * x = z at hq
  cases hq with
  | zero t => exact absurd hz (signFactor_mul_ne_zero s hx)
  | finite t hn hpos hc hk hround =>
    obtain ⟨rfl, rfl⟩ := signFactor_mul_inj hx hpos hz
    exact .finite s hn hy hc hk (h _ _ hc.lt hround)
  | infinity t hpos hc hk hround =>
    obtain ⟨rfl, rfl⟩ := signFactor_mul_inj hx hpos hz
    exact .infinity s hy hc hk (h _ _ hc.lt hround)

/-- A number rounds, when it is doubled, as the double that it is rounded to does. -/
theorem IsRounded.mul_two_pow (hx : IsRounded x (parts f)) (hf : number? f = some y)
    (hmultiple : IsMultiple x) (j : ℕ) (hq : IsRounded (y * 2 ^ j) q) :
    IsRounded (x * 2 ^ j) q := by
  rw [number?_eq_some_iff] at hf
  generalize parts f = p at hx hf
  cases hf with
  | zero t =>
    cases hx
    exact hq
  | finite t n k hn =>
    cases hx with
    | @finite _ x _ _ _ hpos hc hk hround =>
      by_cases hleast : k = -1074
      · subst hleast
        rw [hround.eq_of_isMultiple hpos (isMultiple_signFactor_mul_iff.mp hmultiple)] at hq
        exact hq
      · rw [mul_assoc] at hq ⊢
        refine IsRounded.of_roundsTo (by positivity) (by positivity) ?_ hq
        intro m i hm hdouble
        have hc' : IsCanonical n (k + j) :=
          ⟨hc.lt, by have := hc.least_le; omega, Or.inl (hc.full.resolve_right hleast)⟩
        have hself := RoundsTo.self hc'
        rw [zpow_add₀ two_ne_zero, zpow_natCast, ← mul_assoc] at hself
        obtain ⟨rfl, rfl⟩ := hdouble.unique hself hm hc.lt
        exact hround.mul_two_pow hleast j

/-- A double that is doubled is not rounded. -/
theorem number?_mul_two_pow {j : ℕ} (hf : number? f = some x) (hg : number? g = some (2 ^ j))
    (hproduct : number? (f * g) = some y) : y = x * 2 ^ j := by
  have hwhole : number? g = some ((2 ^ j : ℤ) : ℚ) := by exact_mod_cast hg
  have hrounded := isRounded_mul hf hwhole
  push_cast at hrounded
  rw [number?_eq_some_iff] at hf hproduct
  generalize parts (f * g) = q at hrounded hproduct
  generalize hparts : parts f = p at hf
  cases hf with
  | zero t =>
    rw [zero_mul] at hrounded ⊢
    obtain ⟨t, rfl⟩ := hrounded.exists_zero rfl
    cases hproduct
    rfl
  | finite t n k hn =>
    obtain ⟨hc, -⟩ := isCanonical_of_parts hparts
    have hvalue : signFactor t * (n * 2 ^ k) * 2 ^ j = signFactor t * (n * 2 ^ (k + j)) := by
      rw [zpow_add₀ two_ne_zero, zpow_natCast, mul_assoc, mul_assoc]
    rw [hvalue] at hrounded ⊢
    generalize hz : signFactor t * ((n : ℚ) * 2 ^ (k + j)) = z at hrounded ⊢
    cases hproduct with
    | zero s =>
      cases hrounded
      rfl
    | finite s m i hm =>
      cases hrounded with
      | finite _ _ hpos hc' hk' hround =>
        obtain ⟨rfl, rfl⟩ := signFactor_mul_inj (by positivity) hpos hz
        rw [hround.eq_self hc.lt (by have := hc.least_le; omega)]

end TemplateCost.Double
