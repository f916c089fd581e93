import TemplateCost.Report.Json
import TemplateCost.Report.Text

/-! # Report formats

Formats are found by name in any case; text has a short name too.
-/
namespace TemplateCost

inductive ReportFormat
  | json
  | text
deriving DecidableEq

namespace ReportFormat

def ofName? (name : String) : Option ReportFormat :=
  match String.ofList (name.toList.map Char.toLower) with
  | "json" => some json
  | "text" | "txt" => some text
  | _ => none

def name : ReportFormat → String
  | json => "json"
  | text => "text"

def extension : ReportFormat → String
  | json => "json"
  | text => "txt"

def inventoryText : ReportFormat → Inventory → String
  | json => JsonReport.ofInventory
  | text => TextReport.ofInventory

def estimateText : ReportFormat → Estimate → String
  | json => JsonReport.ofEstimate
  | text => TextReport.ofEstimate

def unknown (name : String) : String := "unknown backend '" ++ name ++ "'"

end ReportFormat
end TemplateCost
