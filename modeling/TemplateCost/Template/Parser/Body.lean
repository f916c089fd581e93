import TemplateCost.Template.Parser.Expression

/-! # Bodies

A body is a sequence of attributes and blocks, each on lines of its own. A block that stays on one
line holds at most one attribute. No attribute stands twice in a body.
-/
namespace TemplateCost.Template
open Text Text.Reader

inductive Structure where
  | member (name : String) (value : Expr)
  | block (b : Block)

def Structure.member? : Structure → Option (String × Expr)
  | member name value => some (name, value)
  | block _ => none

def Structure.block? : Structure → Option Block
  | member _ _ => none
  | block b => some b

/-- Attributes and blocks keep their order among themselves. -/
def Body.ofStructures? (structures : List Structure) : Option Body :=
  let attributes := structures.filterMap Structure.member?
  if (attributes.map Prod.fst).Nodup then
    some (.mk attributes (structures.filterMap Structure.block?))
  else none

namespace Parser

def value (levels : Nat) : Reader Expr := Scribe.toReader ((outermost levels).expression .inline)

def name : Reader String := String.ofList <$> identifier

def assignment (levels : Nat) : Reader (String × Expr) := do
  let name ← name
  afterBlanks .inline (char '=')
  let e ← afterBlanks .inline (value levels)
  pure (name, e)

def label : Reader String := name <|> plainText

def bodyOnOneLine : Nat → Reader Body
  | 0 => failure
  | levels + 1 => do
    let only ← optional (afterBlanks .inline (assignment (levels + 1)))
    afterBlanks .inline (char '}')
    pure (.mk only.toList [])

/-- A block whose body is read by one reader if it starts on a new line and by the other if not. -/
def block (body onOneLine : Reader Body) : Reader Block := do
  let kind ← name
  let labels ← many (afterBlanks .inline label)
  afterBlanks .inline (char '{')
  let body ← if ← ahead lineEnd then (do
      lineEnd
      let body ← body
      afterBlanks .multiline (char '}')
      pure body)
    else onOneLine
  pure (.mk kind labels body)

def body : Nat → Reader Body
  | 0 => failure
  | levels + 1 => do
    let structures ← many (do
      skipBlanks .multiline
      let found ← if ← ahead (do let _ ← name; afterBlanks .inline (char '=')) then (do
          let (name, e) ← assignment (levels + 1)
          pure (Structure.member name e))
        else Structure.block <$> block (body levels) (bodyOnOneLine levels)
      lineEnd
      pure found)
    (Body.ofStructures? structures : Option Body)

def wholeBody : Reader Body := do
  let b ← body deepest
  skipBlanks .multiline
  pure b

end Parser

/-- The body that a text holds, if it is a template. -/
def Body.ofText? (text : String) : Option Body := Text.Reader.whole? Parser.wholeBody text.toList

end TemplateCost.Template
