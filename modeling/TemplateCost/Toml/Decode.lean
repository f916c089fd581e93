import TemplateCost.Decimal.Integer
import TemplateCost.Toml.Document

/-! # Records from TOML

A record is read from a table by the names of its fields, or from an array by their order. Fields
that are not asked for are not looked at. A number that is asked for as a double may be written as
an integer below 2^64.
-/
namespace TemplateCost.Toml

abbrev Decoder (α : Type) := Toml → Option α

inductive Fields where
  | named (entries : Entries Toml)
  | inOrder (items : List Toml)

abbrev FieldReader := StateT Fields Option

def fields? : Toml → Option Fields
  | .table entries => some (.named entries)
  | .array items => some (.inOrder items)
  | _ => none

/-- The next field, if it is there; `none` inside means that a table lacks it. -/
def nextField (name : String) : FieldReader (Option Toml)
  | .named entries => some (Entries.get? name entries, .named entries)
  | .inOrder (item :: rest) => some (some item, .inOrder rest)
  | .inOrder [] => some (none, .inOrder [])

def required (name : String) (decode : Decoder α) : FieldReader α := do
  match ← nextField name with
  | some v => (decode v : Option α)
  | none => failure

def withDefault (name : String) (decode : Decoder α) (value : α) : FieldReader α := do
  match ← nextField name with
  | some v => (decode v : Option α)
  | none => pure value

/-- A field that a table may lack; in an array every field has its place. -/
def optionalField (name : String) (decode : Decoder α) : FieldReader (Option α) := do
  match ← nextField name, ← get with
  | some v, _ => some <$> (decode v : Option α)
  | none, .named _ => pure none
  | none, .inOrder _ => failure

def record (reader : FieldReader α) : Decoder α := fun v => do
  let fields ← fields? v
  (reader fields).map Prod.fst

def string? : Decoder String
  | .string text => some text
  | _ => none

def float? : Decoder Float
  | .integer i =>
    if -0x8000000000000000 ≤ i ∧ i < 0x10000000000000000 then some (Float.ofInt i) else none
  | .float f => some f
  | _ => none

def int64? : Decoder Int64
  | .integer i => Decimal.toInt64? i
  | _ => none

def listOf (decode : Decoder α) : Decoder (List α)
  | .array items => items.mapM decode
  | _ => none

/-- The key of a table that stands for a date or a time. -/
def timestampKey : String := "$__toml_private_datetime"

def timestamp? (text : String) : Option Timestamp :=
  Text.Reader.whole? Parser.timestamp text.toList

mutual
/-- The value as it is kept. Integers have to lie in the signed range, and a table that starts with the
key for a timestamp is that timestamp, whatever else it holds. -/
def kept? : Toml → Option Toml
  | .integer i => if Decimal.inInt64 i then some (.integer i) else none
  | .array items => (keptItems? items).map .array
  | .table [] => some (.table [])
  | .table ((key, value) :: rest) =>
    if key = timestampKey then
      match value with
      | .string text => (timestamp? text).map .timestamp
      | _ => none
    else do
      let first ← kept? value
      let more ← keptEntries? rest
      pure (.table ((key, first) :: more))
  | .string text => some (.string text)
  | .float f => some (.float f)
  | .bool b => some (.bool b)
  | .timestamp t => some (.timestamp t)
def keptItems? : List Toml → Option (List Toml)
  | [] => some []
  | item :: rest => do
    let first ← kept? item
    let more ← keptItems? rest
    pure (first :: more)
def keptEntries? : List (String × Toml) → Option (List (String × Toml))
  | [] => some []
  | (key, value) :: rest => do
    let first ← kept? value
    let more ← keptEntries? rest
    pure ((key, first) :: more)
end

def table? : Decoder (Entries Toml)
  | .table entries => keptEntries? entries
  | _ => none

end TemplateCost.Toml
