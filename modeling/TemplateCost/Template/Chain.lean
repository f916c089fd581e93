import TemplateCost.Template.Syntax

/-! # Chained operators

Operators chain while the operands of one are operations themselves; brackets of any kind start a new
chain. The load of an expression is the greatest number of operators that it counts on one way
inwards: those of its own chain and the load of one of the chain's operands.
-/
namespace TemplateCost.Template

def greatest (loads : List Nat) : Nat := loads.foldl max 0

mutual
/-- The operators of the outermost chain, and the greatest load of its operands. -/
def Expr.chain : Expr → Nat × Nat
  | .binary _ left right =>
    let (m, a) := left.chain
    let (n, b) := right.chain
    (m + n + 1, max a b)
  | .null => (0, 0)
  | .bool _ => (0, 0)
  | .number _ => (0, 0)
  | .string _ => (0, 0)
  | .malformed => (0, 0)
  | .variable _ => (0, 0)
  | .quoted elements => (0, greatest (Element.loads elements))
  | .call _ arguments => (0, greatest (Expr.loads arguments))
  | .list items => (0, greatest (Expr.loads items))
  | .object items => (0, greatest (Key.loads items))
  | .parens inner => let (n, a) := inner.chain; (0, n + a)
  | .unary _ operand => let (n, a) := operand.chain; (0, n + a)
  | .traversal root steps =>
    let (n, a) := root.chain
    (0, max (n + a) (greatest (Step.loads steps)))
  | .conditional condition yes no =>
    let (l, a) := condition.chain
    let (m, b) := yes.chain
    let (n, c) := no.chain
    (0, max (l + a) (max (m + b) (n + c)))
  | .forEach _ collection parts =>
    let (n, a) := collection.chain
    (0, max (n + a) (greatest (Expr.loads parts)))
def Expr.loads : List Expr → List Nat
  | [] => []
  | e :: rest => let (n, a) := e.chain; (n + a) :: Expr.loads rest
def Step.load : Step → Nat
  | .index inner => let (n, a) := inner.chain; n + a
  | .member _ => 0
  | .position _ => 0
  | .attributeSplat => 0
  | .fullSplat => 0
def Step.loads : List Step → List Nat
  | [] => []
  | step :: rest => step.load :: Step.loads rest
def Element.load : Element → Nat
  | .interpolation inner => let (n, a) := inner.chain; n + a
  | .literal _ => 0
  | .directive => 0
def Element.loads : List Element → List Nat
  | [] => []
  | element :: rest => element.load :: Element.loads rest
def Key.load : Key → Nat
  | .expression inner => let (n, a) := inner.chain; n + a
  | .identifier _ => 0
def Key.loads : List (Key × Expr) → List Nat
  | [] => []
  | (key, item) :: rest => let (n, a) := item.chain; max key.load (n + a) :: Key.loads rest
end

def Expr.load (e : Expr) : Nat := e.chain.1 + e.chain.2

end TemplateCost.Template
