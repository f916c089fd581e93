/-! # Template syntax

A template is a body of attributes and nested blocks. Attributes hold expressions; quoted text with
interpolations is an expression made of elements. A directive is an element without parts, because
nothing inside it is ever evaluated.
-/
namespace TemplateCost.Template

/-- A number as written: a whole number below 2^64 and not below -2^63, or a finite double. -/
inductive Numeral where
  | integer (i : Int)
  | float (f : Float)
deriving DecidableEq

inductive UnaryOp
  | negate
  | not
deriving DecidableEq

inductive BinaryOp
  | equal
  | notEqual
  | less
  | lessEqual
  | greater
  | greaterEqual
  | plus
  | minus
  | times
  | divide
  | modulo
  | and
  | or
deriving DecidableEq

mutual
inductive Expr where
  | null
  | bool (b : Bool)
  | number (n : Numeral)
  | string (text : String)
  | quoted (elements : List Element)
  /-- Quoted text whose elements do not form a template. -/
  | malformed
  | variable (name : String)
  | traversal (root : Expr) (steps : List Step)
  | call (name : String) (arguments : List Expr)
  | list (items : List Expr)
  | object (items : List (Key × Expr))
  | conditional (condition yes no : Expr)
  | parens (inner : Expr)
  | unary (op : UnaryOp) (operand : Expr)
  | binary (op : BinaryOp) (left right : Expr)
  | forEach (names : List String) (collection : Expr) (parts : List Expr)
inductive Step where
  | member (name : String)
  | position (n : Nat)
  | index (inner : Expr)
  | attributeSplat
  | fullSplat
inductive Element where
  | literal (text : String)
  | interpolation (inner : Expr)
  | directive
inductive Key where
  | identifier (name : String)
  | expression (inner : Expr)
end

instance : Inhabited Expr := ⟨.null⟩

mutual
inductive Body where
  | mk (attributes : List (String × Expr)) (blocks : List Block)
inductive Block where
  | mk (kind : String) (labels : List String) (body : Body)
end

namespace Body

def attributes : Body → List (String × Expr)
  | mk attributes _ => attributes

def blocks : Body → List Block
  | mk _ blocks => blocks

instance : Inhabited Body := ⟨⟨[], []⟩⟩

def attribute? (name : String) (body : Body) : Option Expr :=
  (body.attributes.find? fun entry => entry.1 = name).map Prod.snd

end Body

namespace Block

def kind : Block → String
  | mk kind _ _ => kind

def labels : Block → List String
  | mk _ labels _ => labels

def body : Block → Body
  | mk _ _ body => body

end Block

def Body.blocksOf (kind : String) (body : Body) : List Block :=
  body.blocks.filter fun block => block.kind = kind

end TemplateCost.Template
