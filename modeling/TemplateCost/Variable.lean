import TemplateCost.Decimal.Scan
import TemplateCost.Template.Evaluate
import TemplateCost.Text.Blank

/-! # Variables

A `variable` block declares a type, a description and a default; of two blocks with one name the
later one counts as a whole. The environment is layered: defaults, then assigned values, then
overrides. An override is converted to the declared type and stays raw text where that fails.
-/
namespace TemplateCost
open Template

inductive VarType
  | string
  | number
  | bool
  | other
deriving DecidableEq, Inhabited

namespace VarType

def name : VarType → String
  | string => "string"
  | number => "number"
  | bool => "bool"
  | other => "other"

def ofText (text : String) : VarType :=
  let bare := String.ofList (Text.trim text.toList)
  ([string, number, bool].find? fun type => type.name = bare).getD other

def ofExpr : Expr → VarType
  | .variable name => ofText name
  | .string text => ofText text
  | _ => other

end VarType

structure Variable where
  name : String
  type : VarType
  description : String
  default : Option Value
deriving Inhabited

namespace Variable

def ofBody (name : String) (body : Body) : Variable where
  name := name
  type := (body.attribute? "type").elim .other VarType.ofExpr
  description := match (body.attribute? "description").map (Expr.eval []) with
    | some (.ok (.string text)) => text
    | _ => ""
  default := match (body.attribute? "default").map (Expr.eval []) with
    | some (.ok value) => some value
    | _ => none

def ofBlock? (block : Block) : Option (String × Variable) :=
  block.labels.head?.map fun name => (name, ofBody name block.body)

/-- The variables that bodies declare, by name. -/
def declared (bodies : List Body) : Entries Variable :=
  Entries.ofList ((bodies.flatMap (Body.blocksOf "variable")).filterMap ofBlock?)

end Variable

/-- Values of a file that assigns variables; attributes without a value are left out. -/
def assignedValues (body : Body) : Entries Value :=
  Entries.ofList (body.attributes.filterMap fun entry =>
    (entry.2.eval []).toOption.map fun value => (entry.1, value))

inductive CoercionError
  | number (raw : String)
  | bool (raw : String)
deriving DecidableEq

def CoercionError.message : CoercionError → String
  | number raw => "cannot convert '" ++ raw ++ "' to number"
  | bool raw => "cannot convert '" ++ raw ++ "' to bool"

/-- Text as a value of the type: a number is an integer if it reads as one, else a double. -/
def VarType.coerce (type : VarType) (raw : String) : Except CoercionError Value :=
  match type with
  | .number =>
    match Decimal.readInt64? raw.toList, Decimal.readFloat? raw.toList with
    | some i, _ => .ok (.int i)
    | none, some f => .ok (.float f)
    | none, none => .error (.number raw)
  | .bool =>
    if raw = "true" then .ok (.bool true)
    else if raw = "false" then .ok (.bool false)
    else .error (.bool raw)
  | .string | .other => .ok (.string raw)

namespace Variable

/-- What an override binds: converted for a declared variable, otherwise raw. -/
def overrideValue (declarations : Entries Variable) (name raw : String) : Value :=
  match declarations.get? name with
  | none => .string raw
  | some v => (v.type.coerce raw).toOption.getD (.string raw)

def environment (declarations : Entries Variable) (assigned : Option (Entries Value))
    (overrides : Entries String) : Environment :=
  let defaults : Environment := Entries.ofList (declarations.filterMap fun entry =>
    entry.2.default.map fun value => (entry.1, value))
  (defaults.overlay (assigned.getD [])).overlay
    (overrides.map fun entry => (entry.1, overrideValue declarations entry.1 entry.2))

end Variable
end TemplateCost
