import TemplateCost.Entries

/-! # TOML values

Integers are unbounded here; readers of a document decide which range they take.
-/
namespace TemplateCost

/-- A date, a time of day or both, with an offset in minutes or the letter for none. -/
structure Timestamp where
  date : Option (Nat × Nat × Nat)
  time : Option (Nat × Nat × Nat × Nat)
  offset : Option (Option Int)
deriving DecidableEq

inductive Toml where
  | string (text : String)
  | integer (i : Int)
  | float (f : Float)
  | bool (b : Bool)
  | timestamp (t : Timestamp)
  | array (items : List Toml)
  | table (entries : List (String × Toml))
deriving Inhabited

end TemplateCost
