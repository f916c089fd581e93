import TemplateCost.Pricing.Basic

/-! # Price books

A row with the region asked for goes before rows without a region. A chosen row with a negative
price is an error and never falls through to another row.
-/
namespace TemplateCost

structure PriceRow where
  provider : String
  region : Option String
  key : String
  price : Price
deriving DecidableEq, Inhabited

abbrev PriceBook := List PriceRow

namespace PriceBook

def candidates (book : PriceBook) (q : PriceQuestion) : List PriceRow :=
  book.filter fun row => row.provider = q.provider && row.key = q.key

def row? (book : PriceBook) (q : PriceQuestion) : Option PriceRow :=
  ((book.candidates q).find? fun row => row.region = some q.location).or
    ((book.candidates q).find? fun row => row.region.isNone)

def lookup (book : PriceBook) : PriceSource := fun q =>
  match book.row? q with
  | none => .error (.notFound q)
  | some row =>
    if row.price.hourly < 0 then
      .error (.invalid ("negative hourly price for " ++ q.provider ++ "/" ++ q.key))
    else .ok row.price

end PriceBook
end TemplateCost
