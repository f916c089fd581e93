import TemplateCost.Template.Margin
import TemplateCost.Template.Parser.Literal
import TemplateCost.Template.Parser.Scribe

/-! # Parts of templates

A template is a sequence of literals, interpolations and directives. A directive goes from its first
tag to its last, and the bodies between its tags are templates of plain text.
-/
namespace TemplateCost.Template.Parser
open Text
open Text.Reader hiding many ahead

/-! ## Levels -/

/-- What can be read on one level: an expression, an operand, the body of a directive. -/
structure Level where
  expression : Spacing → Scribe Expr
  operand : Scribe Expr
  body : Scribe (List Part)

def Level.none : Level := ⟨fun _ => failure, failure, failure⟩

/-- The level further in, for expressions as such and for those inside a template, and what a template
means here. -/
structure Inner where
  nested : Level
  embedded : Level
  meaning : List Part → Expr

namespace Inner
variable (inner : Inner)
open Scribe

/-! ## Interpolations and directives -/

def stripMark : Scribe Unit := do let _ ← optional (mark "~")

/-- An expression on one line, which may itself stand on a line of its own. -/
def onOneLine (level : Level) : Scribe Expr := after .multiline (level.expression .inline)

/-- The names that a loop binds and what it runs over. -/
def loopIntro (level : Level) : Scribe (List String × Expr) := do
  let first ← after .multiline name
  let second ← optional (do after .multiline (mark ","); after .multiline name)
  after .multiline (mark "in")
  let collection ← onOneLine level
  pure (first :: second.toList, collection)

def interpolation : Scribe Element := do
  mark "$\x7b"; stripMark
  let e ← after .multiline (inner.embedded.expression .multiline)
  skip .multiline; stripMark; mark "\x7d"
  pure (.interpolation e)

def tag (content : Scribe Unit) : Scribe Unit := do
  mark "%\x7b"; stripMark; gap .multiline
  content
  stripMark; mark "\x7d"

def keywordTag (keyword : String) : Scribe Unit := tag (do mark keyword; gap .multiline)

def choice : Scribe Unit := do
  tag (do mark "if"; let _ ← onOneLine inner.embedded; skip .multiline)
  let _ ← inner.embedded.body
  let _ ← optional (do keywordTag "else"; inner.embedded.body)
  keywordTag "endif"

def loop : Scribe Unit := do
  tag (do mark "for"; let _ ← loopIntro inner.embedded; skip .multiline)
  let _ ← inner.embedded.body
  keywordTag "endfor"

def literalElement (literal : Reader (List Char)) : Scribe Element := do
  let text ← literal
  keep (.literal text)
  pure (.literal (String.ofList text))

def element (literal : Reader (List Char)) : Scribe Element := do
  if ← ahead (mark "$\x7b") then inner.interpolation
  else if ← ahead (mark "%\x7b") then (do inner.choice <|> inner.loop; pure .directive)
  else literalElement literal

def template (literal : Reader (List Char)) : Scribe (List Part) := many (do
  let (pieces, element) ← withPieces (inner.element literal)
  pure ⟨element, pieces⟩)

/-! ## Quoted text and heredocs -/

def string : Scribe Expr := do
  char '\x22'
  let text ← optional quotedLiteral
  char '\x22'
  keep (.string (text.getD []))
  pure (.string (String.ofList (text.getD [])))

def quotedTemplate : Scribe Expr := do
  char '\x22'; keep .openQuote
  let parts ← inner.template quotedLiteral
  char '\x22'; keep .closeQuote
  pure (inner.meaning parts)

/-- Quoted text is a template only if it holds more than literal text. -/
def quotedText : Scribe Expr := string <|> inner.quotedTemplate

/-- The line end before the terminator belongs to the text, so the first line of a heredoc ends it
only if no later line does. -/
def heredocParts (label : String) : Scribe (List Part × List Char) :=
  (do
    let parts ← inner.template (heredocLiteral label)
    let (lineEnd, _) ← withSource newline
    keep (.literal lineEnd)
    let blanks ← terminator label
    pure (Part.append lineEnd parts, blanks))
  <|> (do pure ([], ← terminator label))

def heredoc : Scribe Expr := do
  mark "<<"
  let indented := (← optional (mark "-")).isSome
  let label ← name
  newline; keep (.mark ['\n'])
  let (parts, blanks) ← inner.heredocParts label
  unless blanks.isEmpty do keep (.gap blanks)
  keep (.mark label.toList)
  pure (inner.meaning (if indented then Margin.remove parts else parts))

end Inner
end TemplateCost.Template.Parser
