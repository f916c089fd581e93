import TemplateCost.Pricing.Book
import TemplateCost.Toml.Decode

/-! # Price books as TOML

A row names its provider and key; its currency is US dollars and its prices are zero unless given.
-/
namespace TemplateCost
open Toml

def Tier.ofToml? : Decoder Tier := record do
  let least ← required "min_units" int64?
  let most ← required "max_units" int64?
  let price ← required "price_per_unit" float?
  pure ⟨least, most, price⟩

def PriceRow.ofToml? : Decoder PriceRow := record do
  let provider ← required "provider" string?
  let region ← withDefault "region" (fun v => some <$> string? v) none
  let key ← required "key" string?
  let currency ← withDefault "currency" string? "USD"
  let hourly ← withDefault "hourly_price" float? 0
  let tiers ← withDefault "tiers" (listOf Tier.ofToml?) []
  pure ⟨provider, region, key, ⟨currency, hourly, tiers⟩⟩

def PriceBook.ofText? (text : String) : Option PriceBook := do
  let entries ← Toml.parse? text
  record (withDefault "prices" (listOf PriceRow.ofToml?) []) (.table entries)

end TemplateCost
