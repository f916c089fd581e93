import TemplateCost.Pricing.Basic
import TemplateCost.Resource.Extract

/-! # Cost estimates

Each resource is priced on its own and gives one line. Totals, summaries by provider and the
currency are gathered over the priced lines in order; a resource without a price gives a line of
zeros and a warning, and nothing else.
-/
namespace TemplateCost

structure CostLine where
  resourceType : String
  resourceName : String
  provider : String
  count : Int64
  unitHourly : Float
  unitMonthly : Float
  totalHourly : Float
  totalMonthly : Float
  currency : String
  available : Bool
deriving DecidableEq, Inhabited

structure ProviderSummary where
  provider : String
  totalHourly : Float
  totalMonthly : Float
  currency : String
  resourceCount : Nat
deriving DecidableEq, Inhabited

structure Estimate where
  totalHourly : Float
  totalMonthly : Float
  currency : String
  lines : List CostLine
  summaries : Entries ProviderSummary
  unavailableCount : Nat
  timestamp : String
  disclaimer : String
  warnings : List String
deriving DecidableEq, Inhabited

def hoursPerMonth : Float := 720

def defaultCurrency : String := "USD"

def standardDisclaimer : String :=
  "This is an estimate only. Actual costs may vary based on usage, region, and pricing changes."

/-- Types that are priced by the instance type they name. -/
def instanceTyped : List String :=
  ["alicloud_instance", "aws_instance", "tencentcloud_instance", "volcengine_ecs_instance"]

/-- Types without a price of their own. -/
def notBillable : List String :=
  ["alicloud_security_group", "alicloud_security_group_rule", "alicloud_vpc", "alicloud_vswitch",
   "alicloud_zones", "alicloud_images", "alicloud_instance_types",
   "aws_security_group", "aws_security_group_rule", "aws_vpc", "aws_subnet", "aws_key_pair",
   "aws_eip", "aws_availability_zones", "aws_ami",
   "tencentcloud_security_group", "tencentcloud_security_group_rule", "tencentcloud_vpc",
   "tencentcloud_subnet", "tencentcloud_availability_zones", "tencentcloud_images",
   "volcengine_eip_address", "volcengine_eip_associate", "volcengine_security_group",
   "volcengine_security_group_rule", "volcengine_vpc", "volcengine_subnet", "volcengine_zones",
   "volcengine_images",
   "tls_private_key", "tls_cert_request", "tls_locally_signed_cert", "tls_self_signed_cert",
   "local_file", "local_sensitive_file", "random_id", "random_string", "random_password",
   "null_resource"]

/-- Marks of a text that still holds an unresolved expression. -/
def unresolvedMarks : List String := ["$\x7b", "data.", "local.", "module."]

def zonePricedProvider : String := "tencentcloud"

inductive Unpriced
  | notBillable
  | unresolvedInstanceType
  | lookup (error : PricingError)
deriving DecidableEq

namespace Resource

def isResolved (text : String) : Bool :=
  text ≠ "" && unresolvedMarks.all fun mark => !Text.contains mark.toList text.toList

def pricingKey (r : Resource) : Except Unpriced String :=
  if instanceTyped.contains r.type then
    match r.text? "instance_type" with
    | some text => if isResolved text then .ok text else .error .unresolvedInstanceType
    | none => .error .unresolvedInstanceType
  else if TemplateCost.notBillable.contains r.type then .error .notBillable
  else .ok r.type

/-- The zone for the provider that prices by zone, if one is named; otherwise the region. -/
def location (r : Resource) : String :=
  if r.provider = zonePricedProvider then
    match r.text? "availability_zone" with
    | some zone => if zone ≠ "" then zone else r.region
    | none => r.region
  else r.region

def question (r : Resource) : Except Unpriced PriceQuestion :=
  r.pricingKey.map fun key => ⟨r.provider, r.location, key⟩

def pricedLine (r : Resource) (price : Price) : CostLine :=
  let unitHourly := price.unitHourly r.count
  let unitMonthly := unitHourly * hoursPerMonth
  let count := (Number.int r.count).toFloat
  { resourceType := r.type, resourceName := r.name, provider := r.provider, count := r.count
    unitHourly, unitMonthly, totalHourly := unitHourly * count, totalMonthly := unitMonthly * count
    currency := price.currency, available := true }

def unpricedLine (r : Resource) : CostLine where
  resourceType := r.type
  resourceName := r.name
  provider := r.provider
  count := r.count
  unitHourly := 0
  unitMonthly := 0
  totalHourly := 0
  totalMonthly := 0
  currency := ""
  available := false

def cost (source : PriceSource) (r : Resource) : Except Unpriced CostLine := do
  let question ← r.question
  match source question with
  | .ok price => .ok (r.pricedLine price)
  | .error e => .error (.lookup e)

def warning (r : Resource) (reason : Unpriced) : String :=
  "Pricing unavailable for " ++ r.name ++ " (" ++ r.type ++ ")" ++ match reason with
    | .lookup error => ": " ++ error.message
    | _ => ""

end Resource

def CostLine.summaryKey (line : CostLine) : String :=
  if line.provider = "" then "unknown" else line.provider

namespace ProviderSummary

def start (provider currency : String) : ProviderSummary := ⟨provider, 0, 0, currency, 0⟩

def add (summary : ProviderSummary) (line : CostLine) : ProviderSummary :=
  { summary with
    totalHourly := summary.totalHourly + line.totalHourly
    totalMonthly := summary.totalMonthly + line.totalMonthly
    resourceCount := summary.resourceCount + 1 }

end ProviderSummary

namespace Estimate

def empty (timestamp : String) : Estimate := ⟨0, 0, "", [], [], 0, timestamp, standardDisclaimer, []⟩

def addPriced (e : Estimate) (line : CostLine) : Estimate :=
  let key := line.summaryKey
  let summary := (e.summaries.get? key).getD (.start key line.currency)
  { e with
    totalHourly := e.totalHourly + line.totalHourly
    totalMonthly := e.totalMonthly + line.totalMonthly
    currency := if e.currency = "" then line.currency else e.currency
    lines := e.lines ++ [line]
    summaries := e.summaries.insert key (summary.add line) }

def addUnpriced (e : Estimate) (r : Resource) (reason : Unpriced) : Estimate :=
  { e with
    lines := e.lines ++ [r.unpricedLine]
    unavailableCount := e.unavailableCount + 1
    warnings := e.warnings ++ [r.warning reason] }

def step (source : PriceSource) (e : Estimate) (r : Resource) : Estimate :=
  match r.cost source with
  | .ok line => e.addPriced line
  | .error reason => e.addUnpriced r reason

def withDefaultCurrency (e : Estimate) : Estimate :=
  if e.currency = "" then { e with currency := defaultCurrency } else e

def calculate (source : PriceSource) (timestamp : String) (resources : List Resource) : Estimate :=
  (resources.foldl (step source) (empty timestamp)).withDefaultCurrency

/-- Everything that the price source is asked, in order. -/
def questions (resources : List Resource) : List PriceQuestion :=
  resources.filterMap fun r => r.question.toOption

end Estimate
end TemplateCost
