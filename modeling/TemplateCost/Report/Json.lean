import TemplateCost.Cost.Estimate
import TemplateCost.Value.Json

/-! # JSON reports

Objects are written with their keys in increasing order. An estimate leaves its summaries and its
warnings out where there are none.
-/
namespace TemplateCost

namespace Json

/-- An object with its keys in increasing order. -/
def record (fields : List (String × Json)) : Json := .object (Entries.ofList fields)

def nat (n : Nat) : Json := .int n

end Json

namespace CostLine

def toJson (line : CostLine) : Json := .record
  [("resource_type", .string line.resourceType), ("resource_name", .string line.resourceName),
   ("provider", .string line.provider), ("count", .int line.count.toInt),
   ("unit_hourly", .float line.unitHourly), ("unit_monthly", .float line.unitMonthly),
   ("total_hourly", .float line.totalHourly), ("total_monthly", .float line.totalMonthly),
   ("currency", .string line.currency), ("available", .bool line.available)]

end CostLine

namespace ProviderSummary

def toJson (summary : ProviderSummary) : Json := .record
  [("provider", .string summary.provider), ("total_hourly_cost", .float summary.totalHourly),
   ("total_monthly_cost", .float summary.totalMonthly), ("currency", .string summary.currency),
   ("resource_count", .nat summary.resourceCount)]

end ProviderSummary

namespace Estimate

def toJson (e : Estimate) : Json := .record (
  [("total_hourly_cost", .float e.totalHourly), ("total_monthly_cost", .float e.totalMonthly),
   ("currency", .string e.currency), ("breakdown", .array (e.lines.map CostLine.toJson)),
   ("unavailable_count", .nat e.unavailableCount), ("timestamp", .string e.timestamp),
   ("disclaimer", .string e.disclaimer)]
  ++ (if e.summaries.isEmpty then []
    else [("provider_breakdown", .object (e.summaries.mapValues ProviderSummary.toJson))])
  ++ (if e.warnings.isEmpty then [] else [("warnings", .array (e.warnings.map .string))]))

end Estimate

namespace Resource

def toJson (r : Resource) : Json := .record
  [("type", .string r.type), ("name", .string r.name), ("count", .int r.count.toInt),
   ("attributes", (Value.map r.attributes).toJson), ("provider", .string r.provider),
   ("region", .string r.region)]

end Resource

namespace Inventory

def toJson (inventory : Inventory) : Json := .record
  [("provider", .string inventory.provider), ("region", .string inventory.region),
   ("resources", .array (inventory.resources.map Resource.toJson))]

end Inventory

namespace JsonReport

def ofInventory (inventory : Inventory) : String :=
  (Json.record [("backend", .string "json"), ("template", inventory.toJson)]).indentedText

def ofEstimate (e : Estimate) : String :=
  (Json.record [("backend", .string "json"), ("estimate", e.toJson)]).indentedText

end JsonReport
end TemplateCost
