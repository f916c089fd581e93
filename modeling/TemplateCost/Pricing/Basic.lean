/-! # Prices

A price is a flat hourly amount or a schedule of tiers, each for a band of quantities. The tier
that holds a quantity is the first one in the order given; a quantity in no band takes the last.
-/
namespace TemplateCost

structure Tier where
  least : Int64
  /-- No upper bound at 0 and -1. -/
  most : Int64
  price : Float
deriving DecidableEq, Inhabited

namespace Tier

def isUnbounded (tier : Tier) : Bool := tier.most = 0 || tier.most = -1

def contains (tier : Tier) (quantity : Int64) : Bool :=
  tier.least ≤ quantity && (tier.isUnbounded || quantity ≤ tier.most)

def unitPrice (tiers : List Tier) (quantity : Int64) : Float :=
  (((tiers.find? fun tier => tier.contains quantity).or tiers.getLast?).map Tier.price).getD 0

end Tier

/-- Tiers count before the hourly price where there are any. -/
structure Price where
  currency : String
  hourly : Float
  tiers : List Tier
deriving DecidableEq, Inhabited

def Price.unitHourly (price : Price) (quantity : Int64) : Float :=
  if price.tiers.isEmpty then price.hourly else Tier.unitPrice price.tiers quantity

/-- What a price source is asked: a region or zone, and a resource or instance type. -/
structure PriceQuestion where
  provider : String
  location : String
  key : String
deriving DecidableEq, Inhabited

inductive PricingError
  | notFound (question : PriceQuestion)
  | unavailable (reason : String)
  | invalid (reason : String)
deriving DecidableEq

def PricingError.message : PricingError → String
  | notFound q => "price not found for " ++ q.provider ++ "/" ++ q.location ++ "/" ++ q.key
  | unavailable reason => "pricing service unavailable: " ++ reason
  | invalid reason => "invalid pricing data: " ++ reason

abbrev PriceSource := PriceQuestion → Except PricingError Price

end TemplateCost
