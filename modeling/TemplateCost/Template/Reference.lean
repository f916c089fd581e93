import TemplateCost.Decimal.Layout
import TemplateCost.Template.Syntax
import TemplateCost.Text.Search
import TemplateCost.Value.Basic

/-! # References

A reference is written as a dotted path from its root variable. The environment binds bare names, so
one leading `var.` is dropped for the look-up; an unbound reference becomes a placeholder of its
full path.
-/
namespace TemplateCost

abbrev Environment := Entries Value

/-- Text between the marks of an interpolation. -/
def token (inner : String) : String := "$\x7b" ++ inner ++ "\x7d"

def Value.unresolved (inner : String) : Value := .placeholder (token inner)

namespace Template
open Decimal

/-- The number that a literal stands for: the integer if it is in the signed range, else the double
nearest to it. -/
def Numeral.value : Numeral → Number
  | .integer i =>
    match toInt64? i with
    | some n => .int n
    | none => Number.ofFloat (Float.ofInt i)
  | .float f => Number.ofFloat f

def indexLayout : Layout where
  tie := .even
  positional := some (-5, 16)
  wholePoint := false
  exponentPlus := false
  notANumber := "NaN"
  infinity := "inf"
  negativeInfinity := "-inf"

def bracketed (text : String) : String := "[" ++ text ++ "]"

/-- An index in the signed range is written like a position, any other in brackets. -/
def Numeral.indexText : Numeral → String
  | .integer i =>
    match toInt64? i with
    | some n => int64Text n
    | none => bracketed (integerText i)
  | .float f => bracketed (indexLayout.text f)

def Step.text : Step → String
  | .member name => name
  | .position n => natText n
  | .index (.number n) => n.indexText
  | .index (.string text) => bracketed text
  | .index _ => bracketed "..."
  | .attributeSplat => "*"
  | .fullSplat => "*"

def dotted (parts : List String) : String := String.intercalate "." parts

/-- The path of a traversal with these steps; only a variable can be its root. -/
def path? (root : Expr) (steps : List Step) : Option String :=
  match root with
  | .variable name => some (dotted (name :: steps.map Step.text))
  | _ => none

end Template

/-- The name under which a path is bound. -/
def bareName (path : String) : String :=
  match Text.dropMark? "var.".toList path.toList with
  | some rest => String.ofList rest
  | none => path

def Environment.resolve (env : Environment) (path : String) : Value :=
  match env.get? (bareName path) with
  | some value => value
  | none => .unresolved path

end TemplateCost
