import TemplateCost.Pricing.Toml
import TemplateCost.Proofs.Cost.Tally
import TemplateCost.Proofs.Cost.Tiers
import TemplateCost.Proofs.Double.Whole
import TemplateCost.Proofs.Pricing.Book

/-! # Amounts that are not negative

Amounts are sums of products of unit prices, so an estimate has a negative amount, or one that is not a
number, iff one of its lines has such a unit price. A price book refuses a row with a negative hourly
price and looks at nothing else: an hourly price that is not a number goes through, and so does any
price of a tier.
-/
namespace TemplateCost
open Double

/-- No amount is negative, and all of them are numbers. -/
structure CostLine.IsNonneg (line : CostLine) : Prop where
  unitHourly : 0 ≤ line.unitHourly
  unitMonthly : 0 ≤ line.unitMonthly
  totalHourly : 0 ≤ line.totalHourly
  totalMonthly : 0 ≤ line.totalMonthly

structure ProviderSummary.IsNonneg (summary : ProviderSummary) : Prop where
  totalHourly : 0 ≤ summary.totalHourly
  totalMonthly : 0 ≤ summary.totalMonthly

structure Estimate.IsNonneg (e : Estimate) : Prop where
  totalHourly : 0 ≤ e.totalHourly
  totalMonthly : 0 ≤ e.totalMonthly
  lines : ∀ line ∈ e.lines, line.IsNonneg
  summaries : ∀ entry ∈ e.summaries, entry.2.IsNonneg

theorem zero_le_zero : (0 : Float) ≤ 0 := zero_le_iff.mpr (.zero _)

/-! ## Sums -/

theorem CostLine.sumOf_nonneg {amount : CostLine → Float} {lines : List CostLine}
    (h : ∀ line ∈ lines, 0 ≤ amount line) : 0 ≤ sumOf amount lines := by
  induction lines using List.reverseRecOn with
  | nil => exact zero_le_zero
  | append_singleton lines line ih =>
    rw [sumOf_append]
    refine zero_le_add (ih ?_) (h line (by simp))
    intro other hother
    exact h other (List.mem_append_left _ hother)

theorem ProviderSummary.isNonneg_of_ofLines? {key : String} {lines : List CostLine}
    {summary : ProviderSummary} (h : ∀ line ∈ lines, line.IsNonneg)
    (hsummary : ofLines? key lines = some summary) : summary.IsNonneg := by
  cases lines with
  | nil => cases hsummary
  | cons first rest =>
    cases hsummary
    exact ⟨CostLine.sumOf_nonneg fun line hl => (h line hl).totalHourly,
      CostLine.sumOf_nonneg fun line hl => (h line hl).totalMonthly⟩

namespace Estimate

theorem Tallied.isNonneg {e : Estimate} (htallied : e.Tallied)
    (h : ∀ line ∈ e.lines, line.IsNonneg) : e.IsNonneg := by
  have hpriced : ∀ line ∈ e.pricedLines, line.IsNonneg := by
    intro line hl
    exact h line (List.mem_filter.mp hl).1
  refine ⟨?_, ?_, h, ?_⟩
  · rw [htallied.totalHourly]
    exact CostLine.sumOf_nonneg fun line hl => (hpriced line hl).totalHourly
  · rw [htallied.totalMonthly]
    exact CostLine.sumOf_nonneg fun line hl => (hpriced line hl).totalMonthly
  · intro entry he
    have hget := htallied.sorted.get?_of_mem he
    rw [htallied.summary] at hget
    refine ProviderSummary.isNonneg_of_ofLines? ?_ hget
    intro line hl
    exact hpriced line (List.mem_filter.mp hl).1

/-- The aggregates follow the lines. -/
theorem calculate_isNonneg_iff_lines (source : PriceSource) (timestamp : String)
    (resources : List Resource) :
    (calculate source timestamp resources).IsNonneg ↔
      ∀ r ∈ resources, (r.line source).IsNonneg := by
  have htallied := tallied_foldl_step source timestamp resources
  have hlines : (∀ line ∈ (calculate source timestamp resources).lines, line.IsNonneg) ↔
      ∀ r ∈ resources, (r.line source).IsNonneg := by
    rw [calculate_lines, List.forall_mem_map]
  constructor
  · intro h
    exact hlines.mp h.lines
  · intro h
    have hrun := hlines.mpr h
    rw [calculate, withDefaultCurrency_lines] at hrun
    obtain ⟨hhourly, hmonthly, -, hsummaries⟩ := htallied.isNonneg hrun
    rw [calculate]
    exact ⟨by simpa using hhourly, by simpa using hmonthly, by simpa using hrun,
      by simpa using hsummaries⟩

end Estimate

/-! ## Lines -/

theorem hoursPerMonth_finite_pos : hoursPerMonth.isFinite = true ∧ 0 < hoursPerMonth := by
  decide +kernel

theorem count_finite_pos {count : Int64} (h : 0 < count) :
    (Number.int count).toFloat.isFinite = true ∧ 0 < (Number.int count).toFloat := by
  have hpos : 0 < count.toInt := Int64.lt_iff_toInt_lt.mp h
  exact ofInt_finite_pos hpos (count.toInt_lt.trans (by decide))

namespace Resource

theorem isNonneg_unpricedLine (r : Resource) : r.unpricedLine.IsNonneg :=
  ⟨zero_le_zero, zero_le_zero, zero_le_zero, zero_le_zero⟩

/-- All amounts of a line are as good as its unit price. -/
theorem isNonneg_pricedLine_iff {r : Resource} {price : Price} (hcount : 0 < r.count) :
    (r.pricedLine price).IsNonneg ↔ 0 ≤ price.unitHourly r.count := by
  constructor
  · intro h
    exact h.unitHourly
  · intro h
    have hmonthly : 0 ≤ price.unitHourly r.count * hoursPerMonth :=
      zero_le_mul h hoursPerMonth_finite_pos
    exact ⟨h, hmonthly, zero_le_mul h (count_finite_pos hcount),
      zero_le_mul hmonthly (count_finite_pos hcount)⟩

theorem isNonneg_line_iff {source : PriceSource} {r : Resource} (hcount : 0 < r.count) :
    (r.line source).IsNonneg ↔
      ∀ q price, r.question = .ok q → source q = .ok price → 0 ≤ price.unitHourly r.count := by
  rw [line]
  cases hcost : r.cost source with
  | ok line =>
    obtain ⟨q, price, hq, hprice, rfl⟩ := cost_eq_ok_iff.mp hcost
    refine (isNonneg_pricedLine_iff hcount).trans ⟨?_, fun h => h q price hq hprice⟩
    intro h other asked hother hasked
    cases hq.symm.trans hother
    cases hprice.symm.trans hasked
    exact h
  | error reason =>
    refine iff_of_true r.isNonneg_unpricedLine ?_
    intro q price hq hprice
    rw [cost_eq_ok_iff.mpr ⟨q, price, hq, hprice, rfl⟩] at hcost
    cases hcost

end Resource

/-! ## Prices from a book -/

/-- After the hourly price has been looked at, this is left to look at. -/
theorem PriceRow.zero_le_unitHourly_iff {row : PriceRow} (h : ¬ row.price.hourly < 0)
    (quantity : Int64) : 0 ≤ row.price.unitHourly quantity ↔
      (row.price.tiers = [] → row.price.hourly.isNaN = false) ∧
      (row.price.tiers ≠ [] → 0 ≤ Tier.unitPrice row.price.tiers quantity) := by
  rw [Price.unitHourly]
  cases htiers : row.price.tiers with
  | nil => simp [zero_le_iff_of_not_neg h]
  | cons tier rest => simp

/-- Priced from a book, all amounts are numbers that are not negative iff that holds of every unit
price that is charged: of a row without tiers the hourly price has to be a number, of one with tiers
the price of the tier that is selected has to be a number and not negative. A book with such prices
only is safe for all resources, and a chosen row with a negative hourly price gives no price. -/
theorem book_amounts_nonneg_iff (book : PriceBook) (timestamp : String) (resources : List Resource)
    (hcounts : ∀ r ∈ resources, 0 < r.count) :
    let e := Estimate.calculate book.lookup timestamp resources
    (e.IsNonneg ↔ ∀ r ∈ resources, ∀ q row, r.question = .ok q → book.row? q = some row →
      ¬ row.price.hourly < 0 →
        (row.price.tiers = [] → row.price.hourly.isNaN = false) ∧
        (row.price.tiers ≠ [] → 0 ≤ Tier.unitPrice row.price.tiers r.count)) ∧
    ((∀ row ∈ book, row.price.hourly.isNaN = false ∧ ∀ tier ∈ row.price.tiers, 0 ≤ tier.price) →
      e.IsNonneg) ∧
    List.Forall₂ (fun line r => ∀ q row, r.question = .ok q → book.row? q = some row →
      row.price.hourly < 0 → line = r.unpricedLine) e.lines resources := by
  intro e
  have hiff : e.IsNonneg ↔ ∀ r ∈ resources, ∀ q row, r.question = .ok q → book.row? q = some row →
      ¬ row.price.hourly < 0 →
        (row.price.tiers = [] → row.price.hourly.isNaN = false) ∧
        (row.price.tiers ≠ [] → 0 ≤ Tier.unitPrice row.price.tiers r.count) := by
    rw [Estimate.calculate_isNonneg_iff_lines]
    refine forall₂_congr fun r hr => ?_
    rw [Resource.isNonneg_line_iff (hcounts r hr)]
    constructor
    · intro h q row hq hrow hhourly
      have hprice := PriceBook.lookup_eq_ok_iff.mpr ⟨row, hrow, hhourly, rfl⟩
      exact (PriceRow.zero_le_unitHourly_iff hhourly _).mp (h q row.price hq hprice)
    · intro h q price hq hprice
      obtain ⟨row, hrow, hhourly, rfl⟩ := PriceBook.lookup_eq_ok_iff.mp hprice
      exact (PriceRow.zero_le_unitHourly_iff hhourly _).mpr (h q row hq hrow hhourly)
  refine ⟨hiff, ?_, ?_⟩
  · intro hbook
    refine hiff.mpr ?_
    intro r _ q row _ hrow _
    obtain ⟨hnumber, htiers⟩ := hbook row (PriceBook.mem_of_row? hrow)
    refine ⟨fun _ => hnumber, ?_⟩
    intro hne
    obtain ⟨tier, htier, hprice⟩ := Tier.unitPrice_mem hne r.count
    exact hprice ▸ htiers tier htier
  · rw [Estimate.calculate_lines, List.forall₂_map_left_iff]
    refine List.forall₂_same.mpr ?_
    intro r _ q row hq hrow hnegative
    have herror := PriceBook.lookup_of_negative hrow hnegative
    simp [Resource.line, Resource.cost, hq, herror, bind, Except.bind]

/-- A gateway is priced by its type. -/
def gateway : Resource where
  type := "aws_nat_gateway"
  name := "egress"
  count := 1
  attributes := []
  provider := "aws"
  region := ""

/-- A book of one row without a region, which has one tier without an upper bound. -/
def tierBook (price : String) : String :=
  String.intercalate "\n" [
    "[[prices]]",
    "provider = \"aws\"",
    "key = \"aws_nat_gateway\"",
    "",
    "[[prices.tiers]]",
    "min_units = 1",
    "max_units = 0",
    "price_per_unit = " ++ price,
    ""]

theorem free_gateway_amounts_nonneg :
    ∃ book, PriceBook.ofText? (tierBook "-0.0") = some book ∧ (∀ r ∈ [gateway], 0 < r.count) ∧
      (Estimate.calculate book.lookup "" [gateway]).IsNonneg := by
  have hbook : PriceBook.ofText? (tierBook "-0.0") =
      some [⟨"aws", none, "aws_nat_gateway", "USD", 0, [⟨1, 0, -0.0⟩]⟩] := by decide +kernel
  have hcounts : ∀ r ∈ [gateway], 0 < r.count := by decide
  exact ⟨_, hbook, hcounts,
    (book_amounts_nonneg_iff _ "" [gateway] hcounts).2.1 (by decide +kernel)⟩

/-- The price of a tier can be negative, and is charged all the same. -/
theorem negative_tier_charged :
    ¬ ∀ (text : String) (book : PriceBook), PriceBook.ofText? text = some book →
      ∀ (timestamp : String) (resources : List Resource), (∀ r ∈ resources, 0 < r.count) →
        (Estimate.calculate book.lookup timestamp resources).IsNonneg := by
  intro h
  have hbook : PriceBook.ofText? (tierBook "-0.5") =
      some [⟨"aws", none, "aws_nat_gateway", "USD", 0, [⟨1, 0, -0.5⟩]⟩] := by decide +kernel
  have htotal := (h _ _ hbook "" [gateway] (by decide)).totalHourly
  exact absurd htotal (by decide +kernel)

end TemplateCost
