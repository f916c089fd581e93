import TemplateCost.Proofs.Double.Alike

/-! # Beyond the greatest double

Rounding keeps the order of numbers. So what is farther from zero than a double is rounded to nothing that is
nearer, and what is farther from zero than a number that overflows does so too. A product with an infinity
has the signs of both, and is not a number if the other is zero.
-/
namespace TemplateCost.Double
open Float.Model Float.Model.UnpackedFloat

variable {x y r : ℚ} {m n : ℕ} {e i k : ℤ} {f g : Float} {s t u : Sign} {p : UnpackedFloat}

/-! ## Order -/

theorem RoundsTo.exists_nearest (h : RoundsTo x n k) :
    ∃ e j, IsAt x e ∧ IsNearest (x / 2 ^ e) j ∧ (n : ℚ) * 2 ^ k = j * 2 ^ e := by
  rcases h with ⟨hat, hnear⟩ | ⟨rfl, hat, hnear⟩
  · exact ⟨k, n, hat, hnear, rfl⟩
  · refine ⟨k - 1, 2 ^ 53, hat, hnear, ?_⟩
    rw [zpow_sub_one₀ two_ne_zero]
    push_cast
    ring

theorem RoundsTo.mono (hx : RoundsTo x m k) (hy : RoundsTo y n i) (h : x ≤ y) :
    (m : ℚ) * 2 ^ k ≤ n * 2 ^ i := by
  obtain ⟨d, a, hatx, hnearx, hm⟩ := hx.exists_nearest
  obtain ⟨e, b, haty, hneary, hn⟩ := hy.exists_nearest
  rw [hm, hn]
  rcases (hatx.mono haty h).eq_or_lt with rfl | hlt
  · have hab : a ≤ b := hnearx.mono hneary (by gcongr)
    gcongr
  · -- between the exponents lies the least number with the greater one
    have hleast := hatx.least_le
    have ha : a ≤ 2 ^ 53 := by
      refine hnearx.mono (isNearest_self (2 ^ 53)) ?_
      rw [div_le_iff₀ (by positivity)]
      exact_mod_cast hatx.lt.le
    have hb : 2 ^ 52 ≤ b := by
      refine (isNearest_self (2 ^ 52)).mono hneary ?_
      rw [le_div_iff₀ (by positivity)]
      exact_mod_cast haty.full.resolve_right (by omega)
    calc (a : ℚ) * 2 ^ d ≤ 2 ^ 53 * 2 ^ d := by gcongr; exact_mod_cast ha
      _ ≤ 2 ^ 52 * 2 ^ e := bound_le_full hlt
      _ ≤ b * 2 ^ e := by gcongr; exact_mod_cast hb

/-! ## Numbers farther from zero -/

theorem signFactor_mul_self (s : Sign) : signFactor s * signFactor s = 1 := by
  cases s <;> norm_num [signFactor]

theorem signFactor_mul_stretch (s t : Sign) (x r : ℚ) :
    signFactor s * x * r = signFactor (s * t) * (x * (signFactor t * r)) := by
  rw [signFactor_mul]
  linear_combination -(signFactor s * x * r) * signFactor_mul_self t

theorem sign_unique (hs : 0 < signFactor s * x) (ht : 0 < signFactor t * x) : s = t := by
  cases s <;> cases t <;> simp only [signFactor] at hs ht <;> first | rfl | linarith

theorem exists_signFactor {z : ℤ} (hz : z ≠ 0) : ∃ t, 1 ≤ signFactor t * (z : ℚ) := by
  rcases hz.lt_or_gt with hneg | hpos
  · have hle : (z : ℚ) ≤ -1 := by exact_mod_cast Int.le_sub_one_of_lt hneg
    exact ⟨.negative, by rw [signFactor]; linarith⟩
  · have hle : (1 : ℚ) ≤ z := by exact_mod_cast hpos
    exact ⟨.positive, by rw [signFactor]; linarith⟩

theorem IsRounded.infinity_mul (hx : IsRounded x (.infinity s)) (hr : 1 ≤ signFactor t * r)
    (hp : IsRounded (x * r) p) : p = .infinity (s * t) := by
  cases hx with
  | @infinity _ a n k ha hc hk hround =>
    have hle : a ≤ a * (signFactor t * r) := le_mul_of_one_le_right ha.le hr
    have hpos : 0 < a * (signFactor t * r) := ha.trans_le hle
    rw [signFactor_mul_stretch s t] at hp
    generalize hz : signFactor (s * t) * (a * (signFactor t * r)) = z at hp
    cases hp with
    | zero u => exact absurd hz (signFactor_mul_ne_zero _ hpos)
    | infinity u hpos' =>
      obtain ⟨rfl, -⟩ := signFactor_mul_inj hpos hpos' hz
      rfl
    | @finite u b m i hm hpos' hc' hi hround' =>
      obtain ⟨-, rfl⟩ := signFactor_mul_inj hpos hpos' hz
      have hmono := hround.mono hround' hle
      have hfull : (2 : ℚ) ^ 52 ≤ n := by exact_mod_cast hc.full.resolve_right (by omega)
      have hlt : (m : ℚ) < 2 ^ 53 := by exact_mod_cast hc'.lt
      have hbeyond : (m : ℚ) * 2 ^ i < n * 2 ^ k := by
        calc (m : ℚ) * 2 ^ i < 2 ^ 53 * 2 ^ i := mul_lt_mul_of_pos_right hlt (by positivity)
          _ ≤ 2 ^ 52 * 2 ^ k := bound_le_full (by omega)
          _ ≤ n * 2 ^ k := by gcongr
      exact absurd hbeyond (not_lt.mpr hmono)

/-- What a double times a factor is rounded to is the double times a factor, neither of them less than one. -/
theorem exists_factor (hf : number? f = some x) (hr : 1 ≤ signFactor t * r)
    (hg : IsRounded (x * r) (parts g)) (hy : number? g = some y) :
    ∃ q, 1 ≤ signFactor t * q ∧ y = x * q := by
  rw [number?_eq_some_iff] at hf hy
  generalize parts g = p at hg hy
  generalize hparts : parts f = p' at hf
  cases hf with
  | zero s =>
    rw [zero_mul] at hg
    obtain ⟨u, rfl⟩ := hg.exists_zero rfl
    cases hy
    exact ⟨signFactor t, (signFactor_mul_self t).ge, (zero_mul _).symm⟩
  | finite s n k hn =>
    obtain ⟨hc, -⟩ := isCanonical_of_parts hparts
    have ha : (0 : ℚ) < n * 2 ^ k := by positivity
    have hself := RoundsTo.self hc
    generalize hvalue : (n : ℚ) * 2 ^ k = a at ha hself hg ⊢
    have hle : a ≤ a * (signFactor t * r) := le_mul_of_one_le_right ha.le hr
    have hpos : 0 < a * (signFactor t * r) := ha.trans_le hle
    rw [signFactor_mul_stretch s t] at hg
    generalize hz : signFactor (s * t) * (a * (signFactor t * r)) = z at hg
    cases hy with
    | zero u =>
      cases hg
      exact absurd hz (signFactor_mul_ne_zero _ hpos)
    | finite u m i hm =>
      cases hg with
      | finite _ _ hpos' hc' hi hround =>
        obtain ⟨rfl, rfl⟩ := signFactor_mul_inj hpos hpos' hz
        refine ⟨signFactor t * (m * 2 ^ i / a), ?_, ?_⟩
        · rw [← mul_assoc, signFactor_mul_self, one_mul, one_le_div ha, ← hvalue]
          exact hself.mono hround hle
        · rw [signFactor_mul_stretch s t, ← mul_assoc (signFactor t), signFactor_mul_self, one_mul,
            mul_div_cancel₀ _ ha.ne']

/-! ## Products with infinities -/

theorem IsRounded.exists_infinity (h : IsRounded x (parts f)) (hf : ¬ f.isFinite = true) :
    ∃ s, parts f = .infinity s := by
  rw [isFinite_eq] at hf
  generalize parts f = p at h hf
  cases h with
  | zero s => exact absurd rfl hf
  | finite s => exact absurd rfl hf
  | infinity s => exact ⟨s, rfl⟩

theorem IsRounded.pos_of_infinity (h : IsRounded x (.infinity s)) : 0 < signFactor s * x := by
  cases h with
  | infinity _ hpos => rwa [← mul_assoc, signFactor_mul_self, one_mul]

theorem unpack_pack_infinite (s : Sign) : (Float.Model.pack (.infinity s)).unpack = .infinity s := by
  cases s <;> rfl

theorem parts_infinity_mul (hf : parts f = .infinity s) (hg : number? g = some y)
    (hy : 1 ≤ signFactor t * y) : parts (f * g) = .infinity (s * t) := by
  rw [number?_eq_some_iff] at hg
  rw [parts_mul, hf]
  generalize parts g = q at hg ⊢
  cases hg with
  | zero u => norm_num at hy
  | finite u m e hm =>
    have hpos : (0 : ℚ) < m * 2 ^ e := by positivity
    have hsign : u = t := by
      cases u <;> cases t <;> simp only [signFactor] at hy <;> first | rfl | (exfalso; linarith)
    rw [hsign]
    exact unpack_pack_infinite (s * t)

theorem unpack_pack_notANumber : (Float.Model.pack .notANumber).unpack = .notANumber := rfl

theorem parts_infinity_mul_zero (hf : parts f = .infinity s) (hg : number? g = some 0) :
    parts (f * g) = .notANumber := by
  rw [number?_eq_some_iff] at hg
  rw [parts_mul, hf]
  generalize parts g = q at hg ⊢
  generalize hy : (0 : ℚ) = y at hg
  cases hg with
  | zero u => exact unpack_pack_notANumber
  | finite u m e hm => exact absurd hy.symm (signFactor_mul_ne_zero u (by positivity))

/-- If one of two products overflows, so does the product of all three. -/
theorem parts_mul_of_overflow {h : Float} {a b : ℤ} (hf : number? f = some x)
    (hg : number? g = some (a : ℚ)) (hh : number? h = some (b : ℚ)) (ha : 1 ≤ signFactor t * (a : ℚ))
    (hb : 1 ≤ signFactor u * (b : ℚ)) (hs : parts (f * h) = .infinity s) :
    parts (f * g * h) = .infinity (s * t) := by
  have hleft := isRounded_mul hf hg
  have hright := isRounded_mul hf hh
  rw [hs] at hright
  by_cases hfinite : (f * g).isFinite = true
  · obtain ⟨y, hy⟩ := exists_number? hfinite
    obtain ⟨q, hq, rfl⟩ := exists_factor hf ha hleft hy
    have hlast := isRounded_mul hy hh
    rw [mul_right_comm] at hlast
    exact hright.infinity_mul hq hlast
  · obtain ⟨v, hv⟩ := hleft.exists_infinity hfinite
    rw [hv] at hleft
    have hpos := mul_pos hleft.pos_of_infinity (one_pos.trans_le hb)
    have hpos' := mul_pos hright.pos_of_infinity (one_pos.trans_le ha)
    have hsign : v * u = s * t := by
      refine sign_unique (x := x * a * b) ?_ ?_ <;> rw [signFactor_mul] <;> linarith
    rw [← hsign]
    exact parts_infinity_mul hv hh hb

theorem beq_of_infinity (hf : parts f = .infinity s) (hg : parts g = .infinity s) : (f == g) = true := by
  rw [beq_iff, hf, hg]
  cases s <;> rfl

end TemplateCost.Double
