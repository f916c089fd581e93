import TemplateCost.Cost.Estimate
import TemplateCost.Decimal.Layout

/-! # Currencies

A rate table holds a rate for every ordered pair of currencies. Writing a rate also writes its
inverse, and several writes are made together or not at all. An estimate is converted with one rate,
read from its own currency to the target.
-/
namespace TemplateCost

inductive Currency
  | cny
  | usd
  | eur
  | gbp
  | jpy
deriving DecidableEq, Inhabited

namespace Currency

def all : List Currency := [cny, usd, eur, gbp, jpy]

def code : Currency → String
  | cny => "CNY"
  | usd => "USD"
  | eur => "EUR"
  | gbp => "GBP"
  | jpy => "JPY"

/-- Units for one US dollar. -/
def perDollar : Currency → Float
  | cny => 7.2
  | usd => 1.0
  | eur => 0.92
  | gbp => 0.79
  | jpy => 149.0

end Currency

inductive CurrencyError
  | unsupported (code : String)
  | invalidRate (source target : Currency) (rate : Float)
  | unavailable (source target : Currency)
deriving DecidableEq

def CurrencyError.message : CurrencyError → String
  | unsupported code => "unsupported currency: " ++ code
  | invalidRate source target rate =>
    "invalid exchange rate " ++ Decimal.plainText rate ++ " for " ++ source.code ++ " -> "
      ++ target.code
  | unavailable source target => "exchange rate unavailable: " ++ source.code ++ " -> " ++ target.code

def Currency.ofCode (code : String) : Except CurrencyError Currency :=
  match all.find? fun currency => currency.code = code with
  | some currency => .ok currency
  | none => .error (.unsupported code)

structure RateChange where
  source : Currency
  target : Currency
  rate : Float
deriving DecidableEq

/-- Rates by source and target. -/
structure RateTable where
  rates : List ((Currency × Currency) × Float)
deriving DecidableEq

namespace RateTable

def seeded (source target : Currency) : Float :=
  if source = target then 1.0 else target.perDollar / source.perDollar

def initial : RateTable where
  rates := Currency.all.flatMap fun source =>
    Currency.all.map fun target => ((source, target), seeded source target)

def rate? (table : RateTable) (source target : Currency) : Option Float :=
  (table.rates.find? fun entry => entry.1 = (source, target)).map Prod.snd

def rate (table : RateTable) (source target : Currency) : Except CurrencyError Float :=
  match table.rate? source target with
  | some rate => .ok rate
  | none => .error (.unavailable source target)

def put (table : RateTable) (source target : Currency) (rate : Float) : RateTable where
  rates := ((source, target), rate) :: table.rates.filter fun entry => entry.1 ≠ (source, target)

def write (table : RateTable) (change : RateChange) : RateTable :=
  (table.put change.source change.target change.rate).put change.target change.source
    (1.0 / change.rate)

end RateTable

/-- A rate is between two currencies, finite and above zero. -/
def RateChange.isValid (change : RateChange) : Bool :=
  change.source ≠ change.target && change.rate.isFinite && !(change.rate ≤ 0.0)

def RateChange.validate (change : RateChange) : Except CurrencyError Unit :=
  if change.isValid then .ok () else .error (.invalidRate change.source change.target change.rate)

namespace RateTable

def set (table : RateTable) (change : RateChange) : Except CurrencyError RateTable := do
  change.validate
  pure (table.write change)

def update (table : RateTable) (changes : List RateChange) : Except CurrencyError RateTable := do
  changes.forM RateChange.validate
  pure (changes.foldl write table)

def convert (table : RateTable) (amount : Float) (source target : Currency) :
    Except CurrencyError Float :=
  if source = target then .ok amount else do
    let rate ← table.rate source target
    pure (amount * rate)

def convertCodes (table : RateTable) (amount : Float) (source target : String) :
    Except CurrencyError Float := do
  let source ← Currency.ofCode source
  let target ← Currency.ofCode target
  table.convert amount source target

end RateTable

def CostLine.scale (rate : Float) (code : String) (line : CostLine) : CostLine :=
  { line with
    unitHourly := line.unitHourly * rate
    unitMonthly := line.unitMonthly * rate
    totalHourly := line.totalHourly * rate
    totalMonthly := line.totalMonthly * rate
    currency := code }

def ProviderSummary.scale (rate : Float) (code : String) (summary : ProviderSummary) :
    ProviderSummary :=
  { summary with
    totalHourly := summary.totalHourly * rate
    totalMonthly := summary.totalMonthly * rate
    currency := code }

namespace Estimate

/-- All amounts times the rate; lines without a price stay as they are. -/
def scale (rate : Float) (code : String) (e : Estimate) : Estimate :=
  { e with
    totalHourly := e.totalHourly * rate
    totalMonthly := e.totalMonthly * rate
    currency := code
    lines := e.lines.map fun line => if line.available then line.scale rate code else line
    summaries := e.summaries.mapValues (ProviderSummary.scale rate code) }

def convert (table : RateTable) (target : Currency) (e : Estimate) :
    Except CurrencyError Estimate := do
  let source ← Currency.ofCode e.currency
  if source = target then pure e
  else
    let rate ← table.rate source target
    pure (e.scale rate target.code)

end Estimate
end TemplateCost
