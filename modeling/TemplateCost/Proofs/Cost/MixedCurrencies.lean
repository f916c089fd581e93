import TemplateCost.Proofs.Cost.Conversion
import TemplateCost.Proofs.Cost.Tally

/-! # Lines in several currencies

A line has the currency of its price, and an estimate that of its first line with a price. A
conversion goes by the currency of the estimate alone. So its own rate is used for every line in that
currency; a line in another is multiplied by the same rate, or kept in its own currency where the
estimate is in the target's already.
-/
namespace TemplateCost

/-- All amounts converted with the table, from one currency to another. -/
structure CostLine.Converted (table : RateTable) (source target : Currency)
    (before after : CostLine) : Prop where
  unitHourly : table.convert before.unitHourly source target = .ok after.unitHourly
  unitMonthly : table.convert before.unitMonthly source target = .ok after.unitMonthly
  totalHourly : table.convert before.totalHourly source target = .ok after.totalHourly
  totalMonthly : table.convert before.totalMonthly source target = .ok after.totalMonthly
  currency : after.currency = target.code

namespace RateTable
variable {table : RateTable}

theorem convert_of_rate {source target : Currency} {rate : Float} (hne : source ≠ target)
    (hrate : table.rate source target = .ok rate) (amount : Float) :
    table.convert amount source target = .ok (amount * rate) := by
  rw [convert, if_neg hne, hrate]
  rfl

end RateTable

namespace CostLine
variable {table : RateTable} {source target : Currency}

theorem Exchanged.converted {rate : Float} {before after : CostLine} (hne : source ≠ target)
    (hrate : table.rate source target = .ok rate) (h : before.Exchanged rate target.code after) :
    before.Converted table source target after where
  unitHourly := h.unitHourly ▸ RateTable.convert_of_rate hne hrate before.unitHourly
  unitMonthly := h.unitMonthly ▸ RateTable.convert_of_rate hne hrate before.unitMonthly
  totalHourly := h.totalHourly ▸ RateTable.convert_of_rate hne hrate before.totalHourly
  totalMonthly := h.totalMonthly ▸ RateTable.convert_of_rate hne hrate before.totalMonthly
  currency := h.currency

end CostLine

namespace Estimate

end Estimate

end TemplateCost
