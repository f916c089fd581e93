import TemplateCost.Decimal.Layout
import TemplateCost.Value.Basic

/-! # Display text of values

Strings and placeholders are shown as they are, numbers in plain decimals, and containers in
brackets with their parts in order. Values are compared through this text.
-/
namespace TemplateCost

def Number.display : Number → String
  | .int i => Decimal.int64Text i
  | .float f => Decimal.plainText f

def boolText (b : Bool) : String := if b then "true" else "false"

namespace Value

mutual
def display : Value → String
  | .bool b => boolText b
  | .number n => n.display
  | .string text => text
  | .placeholder token => token
  | .list items => "[" ++ String.intercalate ", " (displayItems items) ++ "]"
  | .map entries => "\x7b" ++ String.intercalate ", " (displayEntries entries) ++ "\x7d"
def displayItems : List Value → List String
  | [] => []
  | item :: rest => display item :: displayItems rest
def displayEntries : List (String × Value) → List String
  | [] => []
  | (key, value) :: rest => (key ++ " = " ++ display value) :: displayEntries rest
end

end Value
end TemplateCost
