import TemplateCost.Cost.Estimate
import TemplateCost.Decimal.Fixed
import TemplateCost.Value.Display

/-! # Text reports

Tables have one label column, aligned to the left, and three columns aligned to the right. Hourly
amounts have four places and monthly amounts two.
-/
namespace TemplateCost.TextReport
open Decimal

def spaces (n : Nat) : String := String.ofList (List.replicate n ' ')

def padRight (width : Nat) (text : String) : String := text ++ spaces (width - text.length)
def padLeft (width : Nat) (text : String) : String := spaces (width - text.length) ++ text

def line (text : String) : String := text ++ "\n"

def row (label count hourly monthly : String) : String :=
  line (padRight 40 label ++ " " ++ padLeft 6 count ++ " " ++ padLeft 14 hourly ++ " "
    ++ padLeft 14 monthly)

def hourlyText (amount : Float) : String := fixedText 4 amount
def monthlyText (amount : Float) : String := fixedText 2 amount

def orDash (text : String) : String := if text = "" then "-" else text

def costRow (l : CostLine) : String :=
  let label := l.resourceType ++ "." ++ l.resourceName
  if l.available then
    row label (int64Text l.count) (hourlyText l.totalHourly) (monthlyText l.totalMonthly)
  else row label (int64Text l.count) "n/a" "n/a"

def summaryRow (summary : ProviderSummary) : String :=
  row summary.provider (natText summary.resourceCount) (hourlyText summary.totalHourly)
    (monthlyText summary.totalMonthly)

def ofEstimate (e : Estimate) : String :=
  row "RESOURCE" "COUNT" "HOURLY" "MONTHLY"
    ++ String.join (e.lines.map costRow)
    ++ line ""
    ++ String.join (e.summaries.map fun entry => summaryRow entry.2)
    ++ line ("TOTAL (" ++ e.currency ++ "): " ++ hourlyText e.totalHourly ++ "/hour, "
        ++ monthlyText e.totalMonthly ++ "/month")
    ++ (if 0 < e.unavailableCount then
        line (natText e.unavailableCount ++ " resource(s) without pricing") else "")
    ++ String.join (e.warnings.map fun w => line ("warning: " ++ w))
    ++ line e.disclaimer

def resourceText (r : Resource) : String :=
  line ("  " ++ r.type ++ "." ++ r.name ++ "  x" ++ int64Text r.count ++ "  region="
      ++ orDash r.region)
    ++ String.join (r.attributes.map fun entry =>
        line ("      " ++ entry.1 ++ " = " ++ entry.2.display))

def ofInventory (inventory : Inventory) : String :=
  line ("provider: " ++ orDash inventory.provider ++ "  region: " ++ orDash inventory.region)
    ++ String.join (inventory.resources.map resourceText)
    ++ line (natText inventory.resources.length ++ " resource(s)")

end TemplateCost.TextReport
