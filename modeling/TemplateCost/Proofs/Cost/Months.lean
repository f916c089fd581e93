import TemplateCost.Proofs.Cost.Amounts
import TemplateCost.Proofs.Double.Error
import TemplateCost.Proofs.Double.Overflow

/-! # Months and hours

The month of one unit is its hour times the hours of a month. The total of a month is the month of one unit
times the count, which is rounded in another order than the hours of a month times the total of an hour. Both
are off the exact product by two roundings, and they are equal iff the last of these round alike, as they do
where the count is a power of two or where the first ones change nothing. Where a first one overflows, both
orders do, unless the count is zero.
-/
namespace TemplateCost
open Double

structure Price.IsFinite (price : Price) : Prop where
  hourly : price.hourly.isFinite = true
  tiers : ∀ tier ∈ price.tiers, tier.price.isFinite = true

/-- All prices that are answered are finite. -/
def PriceSource.IsFinite (source : PriceSource) : Prop :=
  ∀ q price, source q = .ok price → price.IsFinite

theorem Price.IsFinite.unitHourly {price : Price} (h : price.IsFinite) (quantity : Int64) :
    (price.unitHourly quantity).isFinite = true := by
  rw [Price.unitHourly]
  split
  · exact h.hourly
  · rename_i htiers
    obtain ⟨tier, htier, hprice⟩ :=
      Tier.unitPrice_mem (fun hnil => htiers (List.isEmpty_iff.mpr hnil)) quantity
    exact hprice ▸ h.tiers tier htier

/-- The double that the count is converted to. -/
def CostLine.units (line : CostLine) : Float := (Number.int line.count).toFloat

/-- The month of a unit follows its hour. The totals of the month and of the hour do so iff the products
that they are rounded from round alike, or, beyond the greatest double, iff there are units at all. They are
off by four roundings at most. -/
structure CostLine.FollowsHours (line : CostLine) : Prop where
  unit : (line.unitMonthly == line.unitHourly * hoursPerMonth) = true
  finite : ∀ month total count, number? line.unitMonthly = some month →
    number? line.totalHourly = some total → number? line.units = some count →
      ((line.totalMonthly == line.totalHourly * hoursPerMonth) = true ↔
        RoundAlike (month * count) (total * 720))
  infinite : ∀ count, number? line.units = some count →
    ¬ (line.unitMonthly.isFinite = true ∧ line.totalHourly.isFinite = true) →
      ((line.totalMonthly == line.totalHourly * hoursPerMonth) = true ↔ count ≠ 0)
  doubled : ∀ j : ℕ, number? line.units = some (2 ^ j) →
    (line.totalMonthly == line.totalHourly * hoursPerMonth) = true
  unrounded : ∀ hour count, number? line.unitHourly = some hour → number? line.units = some count →
    number? line.unitMonthly = some (hour * 720) → number? line.totalHourly = some (hour * count) →
      (line.totalMonthly == line.totalHourly * hoursPerMonth) = true
  near : ∀ month hours, number? line.totalMonthly = some month →
    number? (line.totalHourly * hoursPerMonth) = some hours → Within 4 month hours

/-! ## Two orders of rounding -/

theorem number?_hoursPerMonth : number? hoursPerMonth = some ((720 : ℤ) : ℚ) :=
  number?_ofNat (show 720 < 2 ^ 53 by decide)

theorem exists_whole_count (count : Int64) :
    ∃ z : ℤ, number? (Number.int count).toFloat = some (z : ℚ) := by
  have hlt := count.toInt_lt
  have hle := count.le_toInt
  exact exists_whole_ofInt (by omega)

variable {f g : Float} {x y hour month total : ℚ} {count : ℤ}

theorem beq_hours_iff (hmonth : number? (f * hoursPerMonth) = some month)
    (htotal : number? (f * g) = some total) (hg : number? g = some (count : ℚ)) :
    (f * hoursPerMonth * g == f * g * hoursPerMonth) = true ↔ RoundAlike (month * count) (total * 720) := by
  have h := beq_iff_roundAlike (isRounded_mul hmonth hg) (isRounded_mul htotal number?_hoursPerMonth)
  exact_mod_cast h

theorem beq_hours_iff_of_infinite (hf : number? f = some hour) (hg : number? g = some (count : ℚ))
    (hinfinite : ¬ ((f * hoursPerMonth).isFinite = true ∧ (f * g).isFinite = true)) :
    (f * hoursPerMonth * g == f * g * hoursPerMonth) = true ↔ count ≠ 0 := by
  have hmonth := isRounded_mul hf number?_hoursPerMonth
  have htotal := isRounded_mul hf hg
  have hhours : 1 ≤ signFactor .positive * ((720 : ℤ) : ℚ) := by norm_num [signFactor]
  constructor
  · rintro hbeq rfl
    rw [Int.cast_zero] at hg
    rw [Int.cast_zero, mul_zero] at htotal
    obtain ⟨t, ht⟩ := htotal.exists_zero rfl
    obtain ⟨s, hs⟩ := hmonth.exists_infinity fun hfinite =>
      hinfinite ⟨hfinite, by rw [isFinite_eq, ht]; rfl⟩
    rw [beq_iff, parts_infinity_mul_zero hs hg] at hbeq
    cases hbeq
  · intro hcount
    obtain ⟨t, ht⟩ := exists_signFactor hcount
    by_cases hfinite : (f * hoursPerMonth).isFinite = true
    · obtain ⟨s, hs⟩ := htotal.exists_infinity fun hfinite' => hinfinite ⟨hfinite, hfinite'⟩
      exact beq_of_infinity (parts_mul_of_overflow hf number?_hoursPerMonth hg hhours ht hs)
        (parts_infinity_mul hs number?_hoursPerMonth hhours)
    · obtain ⟨s, hs⟩ := hmonth.exists_infinity hfinite
      exact beq_of_infinity (parts_infinity_mul hs hg ht)
        (parts_mul_of_overflow hf hg number?_hoursPerMonth ht hhours hs)

theorem beq_hours_of_two_pow {j : ℕ} (hf : number? f = some hour) (hg : number? g = some (2 ^ j)) :
    (f * hoursPerMonth * g == f * g * hoursPerMonth) = true := by
  have hcount : number? g = some ((2 ^ j : ℤ) : ℚ) := by exact_mod_cast hg
  by_cases hfinite : (f * hoursPerMonth).isFinite = true ∧ (f * g).isFinite = true
  · obtain ⟨month, hmonth⟩ := exists_number? hfinite.1
    obtain ⟨total, htotal⟩ := exists_number? hfinite.2
    have hlast := isRounded_mul hmonth hcount
    have hdoubled := (isRounded_mul hf number?_hoursPerMonth).mul_two_pow hmonth
      ((isMultiple_of_number? hf).mul_intCast 720) j (by exact_mod_cast hlast)
    rw [beq_hours_iff hmonth htotal hcount, number?_mul_two_pow hf hg htotal]
    refine ⟨_, hlast, ?_⟩
    rw [mul_right_comm]
    exact_mod_cast hdoubled
  · exact (beq_hours_iff_of_infinite hf hcount hfinite).mpr (by positivity)

theorem within_hours (hf : number? f = some hour) (hg : number? g = some (count : ℚ))
    (hx : number? (f * hoursPerMonth * g) = some x) (hy : number? (f * g * hoursPerMonth) = some y) :
    Within 4 x y := by
  obtain ⟨month, hmonth⟩ := exists_number?_of_mul hx
  obtain ⟨total, htotal⟩ := exists_number?_of_mul hy
  have hleft : Within 2 x (hour * (720 : ℤ) * count) :=
    (within_mul hmonth hg hx).trans ((within_mul hf number?_hoursPerMonth hmonth).mul_right count)
  have hright : Within 2 y (hour * count * (720 : ℤ)) :=
    (within_mul htotal number?_hoursPerMonth hy).trans ((within_mul hf hg htotal).mul_right (720 : ℤ))
  rw [mul_right_comm] at hright
  exact hleft.trans hright.symm

/-! ## Lines -/

theorem Resource.followsHours_pricedLine {r : Resource} {price : Price}
    (h : (price.unitHourly r.count).isFinite = true) : (r.pricedLine price).FollowsHours := by
  obtain ⟨hour, hhour⟩ := exists_number? h
  obtain ⟨count, hcount⟩ := exists_whole_count r.count
  have hrounded := isRounded_mul hhour number?_hoursPerMonth
  refine ⟨?unit, ?finite, ?infinite, ?doubled, ?unrounded, ?near⟩
  case unit => exact (beq_iff_roundAlike hrounded hrounded).mpr ⟨_, hrounded, hrounded⟩
  case finite =>
    intro month total other hmonth htotal hother
    cases hcount.symm.trans hother
    exact beq_hours_iff hmonth htotal hcount
  case infinite =>
    intro other hother hinfinite
    cases hcount.symm.trans hother
    exact_mod_cast beq_hours_iff_of_infinite hhour hcount hinfinite
  case doubled =>
    intro j hj
    exact beq_hours_of_two_pow hhour hj
  case unrounded =>
    intro unit units hunit hunits hmonth htotal
    cases hcount.symm.trans hunits
    refine (beq_hours_iff hmonth htotal hcount).mpr ?_
    rw [mul_right_comm]
    have hlast := isRounded_mul htotal number?_hoursPerMonth
    exact ⟨_, by exact_mod_cast hlast, by exact_mod_cast hlast⟩
  case near =>
    intro month hours hmonth hhours
    exact within_hours hhour hcount hmonth hhours

/-- Where all prices are finite, the month of each unit is its hour times 720. The total of the month is 720
times the total of the hour iff the two products that are rounded last round alike, and, if one is infinite
before, iff the count is not zero. The two are at most four roundings apart. -/
theorem months_follow_hours (source : PriceSource) (hsource : source.IsFinite) (timestamp : String)
    (resources : List Resource) :
    ∀ line ∈ (Estimate.calculate source timestamp resources).lines, line.available = true →
      line.FollowsHours := by
  intro line hline havailable
  rw [Estimate.calculate_lines] at hline
  obtain ⟨r, -, rfl⟩ := List.mem_map.mp hline
  rw [Resource.line] at havailable ⊢
  cases hcost : r.cost source with
  | error reason =>
    rw [hcost] at havailable
    cases havailable
  | ok line =>
    obtain ⟨q, price, -, hprice, rfl⟩ := Resource.cost_eq_ok_iff.mp hcost
    exact Resource.followsHours_pricedLine ((hsource q price hprice).unitHourly r.count)

/-- All answers are the same price. -/
def flatSource : PriceSource := fun _ => .ok ⟨"USD", 0.09, []⟩

theorem flatSource_isFinite : flatSource.IsFinite := by
  intro q price hprice
  cases hprice
  exact ⟨by decide +kernel, fun tier htier => absurd htier List.not_mem_nil⟩

theorem four_gateways_follow_hours :
    flatSource.IsFinite ∧
      ∀ line ∈ (Estimate.calculate flatSource "" [{ gateway with count := 4 }]).lines,
        line.available = true → line.FollowsHours :=
  ⟨flatSource_isFinite, months_follow_hours flatSource flatSource_isFinite "" _⟩

/-- The total of a month can be next to 720 times the total of an hour. -/
theorem total_month_off_by_rounding :
    ¬ ∀ source : PriceSource, source.IsFinite → ∀ (timestamp : String) (resources : List Resource),
      ∀ line ∈ (Estimate.calculate source timestamp resources).lines, line.available = true →
        (line.unitMonthly == line.unitHourly * hoursPerMonth) = true ∧
          (line.totalMonthly == line.totalHourly * hoursPerMonth) = true := by
  intro h
  have hlines : ¬ ∀ line ∈ (Estimate.calculate flatSource "" [{ gateway with count := 3 }]).lines,
      line.available = true →
        (line.totalMonthly == line.totalHourly * hoursPerMonth) = true := by decide +kernel
  refine hlines ?_
  intro line hline havailable
  exact (h flatSource flatSource_isFinite "" _ line hline havailable).2

end TemplateCost
