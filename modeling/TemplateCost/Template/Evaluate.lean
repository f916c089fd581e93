import TemplateCost.Template.Reference
import TemplateCost.Value.Display

/-! # Evaluation

What cannot be known from the template alone evaluates to a placeholder: calls and unbound
references. A few forms have no value at all and fail. Lists drop failing elements and objects keep
their keys with a placeholder; every other form hands the failure on. Conditions compare display
texts.
-/
namespace TemplateCost.Template

inductive EvalError
  | null
  | operation
  | forEach
  | unaryCondition
  | noComparison
  | operator (op : BinaryOp)
  | traversalRoot
  | malformedText
deriving DecidableEq

def BinaryOp.name : BinaryOp → String
  | .equal => "Eq"
  | .notEqual => "NotEq"
  | .less => "Less"
  | .lessEqual => "LessEq"
  | .greater => "Greater"
  | .greaterEqual => "GreaterEq"
  | .plus => "Plus"
  | .minus => "Minus"
  | .times => "Mul"
  | .divide => "Div"
  | .modulo => "Mod"
  | .and => "And"
  | .or => "Or"

namespace EvalError

def unsupportedExpression (kind : String) : String := "unsupported expression: " ++ kind
def unsupportedCondition (kind : String) : String := "unsupported condition: " ++ kind

def message : EvalError → String
  | null => unsupportedExpression "null"
  | operation => unsupportedExpression "operation"
  | forEach => unsupportedExpression "for expression"
  | unaryCondition => unsupportedCondition "unary operation"
  | noComparison => unsupportedCondition "expected a comparison"
  | operator op => "unsupported operator in condition: " ++ op.name
  | traversalRoot => "unsupported traversal root"
  | malformedText => "invalid template"

end EvalError

/-- Stands for an interpolation or a directive that is no reference. -/
def hiddenFragment : String := token "..."

/-- Stands for a value of an object that has none. -/
def unsupported : Value := .unresolved "unsupported"

namespace Element

def text (env : Environment) : Element → String
  | literal text => text
  | interpolation (.variable name) => (env.resolve name).display
  | interpolation (.traversal root steps) =>
    match path? root steps with
    | some path => (env.resolve path).display
    | none => hiddenFragment
  | interpolation _ => hiddenFragment
  | directive => hiddenFragment

def render (env : Environment) (elements : List Element) : String :=
  String.join (elements.map (text env))

end Element

/-- The key that an expression is written as; a reference is not looked up. -/
def Expr.keyText? : Expr → Option String
  | .string text => some text
  | .number n => some n.value.display
  | .bool b => some (boolText b)
  | .variable name => some name
  | .traversal root steps => path? root steps
  | .parens inner => inner.keyText?
  | _ => none

def Key.text? : Key → Option String
  | .identifier name => some name
  | .expression inner => inner.keyText?

/-- The outcome of comparing two values. -/
def BinaryOp.compare (left right : Value) : BinaryOp → Except EvalError Bool
  | .equal => .ok (left.display = right.display)
  | .notEqual => .ok (left.display ≠ right.display)
  | op => .error (.operator op)

mutual
def Expr.eval (env : Environment) : Expr → Except EvalError Value
  | .string text => .ok (.string text)
  | .bool b => .ok (.bool b)
  | .number n => .ok (.number n.value)
  | .quoted elements => .ok (.string (Element.render env elements))
  | .malformed => .error .malformedText
  | .variable name => .ok (env.resolve name)
  | .traversal root steps =>
    match path? root steps with
    | some path => .ok (env.resolve path)
    | none => .error .traversalRoot
  | .call name _ => .ok (.unresolved ("function:" ++ name))
  | .object items => .ok (.map (Entries.ofList (Expr.evalItems env items)))
  | .list items => .ok (.list (Expr.evalList env items))
  | .conditional c yes no =>
    match Expr.condition env c with
    | .ok true => Expr.eval env yes
    | .ok false => Expr.eval env no
    | .error e => .error e
  | .parens inner => Expr.eval env inner
  | .null => .error .null
  | .unary _ _ => .error .operation
  | .binary _ _ _ => .error .operation
  | .forEach _ _ _ => .error .forEach
def Expr.condition (env : Environment) : Expr → Except EvalError Bool
  | .binary op left right =>
    match Expr.eval env left with
    | .error e => .error e
    | .ok l =>
      match Expr.eval env right with
      | .error e => .error e
      | .ok r => op.compare l r
  | .unary _ _ => .error .unaryCondition
  | .bool b => .ok b
  | .parens inner => Expr.condition env inner
  | _ => .error .noComparison
def Expr.evalList (env : Environment) : List Expr → List Value
  | [] => []
  | item :: rest =>
    match Expr.eval env item with
    | .ok value => value :: Expr.evalList env rest
    | .error _ => Expr.evalList env rest
/-- Entries in the order of the items; an item without a key text is left out. -/
def Expr.evalItems (env : Environment) : List (Key × Expr) → List (String × Value)
  | [] => []
  | (key, item) :: rest =>
    let value := match Expr.eval env item with
      | .ok value => value
      | .error _ => unsupported
    match key.text? with
    | some text => (text, value) :: Expr.evalItems env rest
    | none => Expr.evalItems env rest
end

end TemplateCost.Template
