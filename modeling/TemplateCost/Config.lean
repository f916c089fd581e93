import TemplateCost.Cost.Currency
import TemplateCost.Toml.Decode
import TemplateCost.Toml.Printer

/-! # Configuration

A configuration lists targets to estimate, settings that they fall back on, and exchange rates. Rates
are applied all together or not at all, and a code that is no currency is reported before any rate
is judged.
-/
namespace TemplateCost
open Toml

structure Settings where
  template : Option String
  currency : Option String
  priceBook : Option String
  vars : Entries Toml
deriving Inhabited

structure Target where
  name : String
  template : Option String
  format : String
  output : Option String
  currency : Option String
  vars : Entries Toml
  priceBook : Option String
deriving Inhabited

structure ConfiguredRate where
  source : String
  target : String
  rate : Float
deriving DecidableEq

structure Config where
  settings : Settings
  targets : List Target
  rates : List ConfiguredRate

namespace Settings

def empty : Settings := ⟨none, none, none, []⟩

def ofToml? : Decoder Settings := record do
  let template ← optionalField "template" string?
  let currency ← optionalField "currency" string?
  let priceBook ← optionalField "price_book" string?
  let vars ← withDefault "vars" table? []
  pure ⟨template, currency, priceBook, vars⟩

end Settings

def ConfiguredRate.ofToml? : Decoder ConfiguredRate := record do
  let source ← required "from" string?
  let target ← required "to" string?
  let rate ← required "rate" float?
  pure ⟨source, target, rate⟩

/-- The text that a configured variable is passed on as: a string as it is, any other value as it is
written in TOML. -/
def overrideText : Toml → String
  | .string text => text
  | value => Toml.text value

namespace Target

def ofToml? : Decoder Target := record do
  let name ← required "name" string?
  let template ← optionalField "template" string?
  let format ← withDefault "backend" string? "text"
  let output ← optionalField "output" string?
  let currency ← optionalField "currency" string?
  let vars ← withDefault "vars" table? []
  let priceBook ← optionalField "price_book" string?
  pure ⟨name, template, format, output, currency, vars, priceBook⟩

def templateIn (target : Target) (settings : Settings) : Option String :=
  target.template.or settings.template

def currencyIn (target : Target) (settings : Settings) : Option String :=
  target.currency.or settings.currency

def priceBookIn (target : Target) (settings : Settings) : Option String :=
  target.priceBook.or settings.priceBook

/-- Variables of the settings with those of the target written over them. -/
def overrides (target : Target) (settings : Settings) : Entries String :=
  (Entries.overlay (Entries.ofList settings.vars) target.vars).mapValues overrideText

end Target

inductive RatesError
  | entry (error : CurrencyError)
  | update (error : CurrencyError)
deriving DecidableEq

namespace RatesError

def outermost : RatesError → String
  | entry _ => "invalid [[rates]] entry"
  | update error => error.message

def message : RatesError → String
  | entry error => "invalid [[rates]] entry: " ++ error.message
  | update error => error.message

end RatesError

def ConfiguredRate.change (r : ConfiguredRate) : Except CurrencyError RateChange := do
  let source ← Currency.ofCode r.source
  let target ← Currency.ofCode r.target
  pure ⟨source, target, r.rate⟩

namespace Config

def ofText? (text : String) : Option Config := do
  let entries ← Toml.parse? text
  record (do
    let settings ← withDefault "settings" Settings.ofToml? .empty
    let targets ← withDefault "targets" (listOf Target.ofToml?) []
    let rates ← withDefault "rates" (listOf ConfiguredRate.ofToml?) []
    pure ⟨settings, targets, rates⟩) (.table entries)

def target? (config : Config) (name : String) : Option Target :=
  config.targets.find? fun target => target.name = name

def applyRates (config : Config) (table : RateTable) : Except RatesError RateTable := do
  let changes ← (config.rates.mapM ConfiguredRate.change).mapError .entry
  (table.update changes).mapError .update

end Config
end TemplateCost
