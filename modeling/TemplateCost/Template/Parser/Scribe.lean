import TemplateCost.Template.Parser.Blank
import TemplateCost.Template.Piece

/-! # Scribes

A scribe reads a template and keeps the pieces that it has taken, the last one first. It also knows
how far the expression that it reads may go: a list, a call or a loop in braces lets the rest of the
expression around it go on over line ends.
-/
namespace TemplateCost.Template.Parser
open Text Text.Reader

structure Progress where
  spacing : Spacing
  taken : List Piece

abbrev Scribe := StateT Progress Reader

namespace Scribe

/-- Reads without the pieces. -/
def toReader (p : Scribe α) : Reader α := Prod.fst <$> p ⟨.inline, []⟩

def keep (piece : Piece) : Scribe Unit := modify fun s => { s with taken := piece :: s.taken }

/-- The pieces that `p` takes, beside its result. -/
def withPieces (p : Scribe α) : Scribe (List Piece × α) := fun s => do
  let (a, t) ← p { s with taken := [] }
  pure ((t.taken.reverse, a), { t with taken := t.taken ++ s.taken })

def many (p : Scribe α) : Scribe (List α) := manyFrom p

/-- Holds where `p` would succeed; takes nothing. -/
def ahead (p : Scribe α) : Scribe Bool := fun s text => some (((p s text).isSome, s), text)

def mark (w : String) : Scribe Unit := do
  word w
  keep (.mark w.toList)

def name : Scribe String := do
  let taken ← identifier
  keep (.mark taken)
  pure (String.ofList taken)

/-- Blanks that belong to an expression beside them. -/
def skip (spacing : Spacing) : Scribe Unit := do
  let taken ← blanks spacing
  unless taken.isEmpty do keep (.blank taken)

/-- Blanks that belong to no expression. -/
def gap (spacing : Spacing) : Scribe Unit := do
  let taken ← blanks spacing
  unless taken.isEmpty do keep (.gap taken)

/-- What `p` takes, with blanks before it. -/
def after (spacing : Spacing) (p : Scribe α) : Scribe α := do skip spacing; p

/-- What `p` takes, with the blanks before it that the expression allows. -/
def further (p : Scribe α) : Scribe α := do after (← get).spacing p

/-- Reads an expression of its own, whose spacing ends with it. -/
def within (spacing : Spacing) (p : Scribe α) : Scribe α := do
  let outer := (← get).spacing
  modify fun s => { s with spacing }
  let a ← p
  modify fun s => { s with spacing := outer }
  pure a

/-- Lets the expression go on over line ends. -/
def widen : Scribe Unit := modify fun s => { s with spacing := .multiline }

end Scribe
end TemplateCost.Template.Parser
