import TemplateCost.Json.Parser
import TemplateCost.Json.Printer
import TemplateCost.Value.Basic

/-! # Values as JSON

A placeholder is written as its token, so reading gives a string back. Reading refuses `null`; of
two fields with one key the last counts; an integer outside the signed range becomes a double.
-/
namespace TemplateCost

def Number.toJson : Number → Json
  | .int i => .int i.toInt
  | .float f => .float f

namespace Value

mutual
def toJson : Value → Json
  | .bool b => .bool b
  | .number n => n.toJson
  | .string text => .string text
  | .placeholder token => .string token
  | .list items => .array (itemsToJson items)
  | .map entries => .object (entriesToJson entries)
def itemsToJson : List Value → List Json
  | [] => []
  | item :: rest => toJson item :: itemsToJson rest
def entriesToJson : List (String × Value) → List (String × Json)
  | [] => []
  | (key, value) :: rest => (key, toJson value) :: entriesToJson rest
end

mutual
def ofJson? : Json → Option Value
  | .null => none
  | .bool b => some (.bool b)
  | .int i => some (.number (match Decimal.toInt64? i with
    | some n => .int n
    | none => .float (Float.ofInt i)))
  | .float f => some (.number (.float f))
  | .string text => some (.string text)
  | .array items => (itemsOfJson? items).map .list
  | .object fields => (fieldsOfJson? fields).map fun list => .map (Entries.ofList list)
def itemsOfJson? : List Json → Option (List Value)
  | [] => some []
  | item :: rest => do
    let value ← ofJson? item
    pure (value :: (← itemsOfJson? rest))
def fieldsOfJson? : List (String × Json) → Option (List (String × Value))
  | [] => some []
  | (key, field) :: rest => do
    let value ← ofJson? field
    pure ((key, value) :: (← fieldsOfJson? rest))
end

def jsonText (value : Value) : String := value.toJson.compactText

def ofJsonText? (text : String) : Option Value := Json.parse? text.toList >>= ofJson?

end Value
end TemplateCost
