/-! # JSON documents

Integers are kept apart from doubles. The fields of an object stand in the order in which they are
written.
-/
namespace TemplateCost

inductive Json where
  | null
  | bool (b : Bool)
  | int (i : Int)
  | float (f : Float)
  | string (text : String)
  | array (items : List Json)
  | object (fields : List (String × Json))
deriving Inhabited

end TemplateCost
