import TemplateCost.Text.Identifier
import TemplateCost.Text.Reader

/-! # Blanks, comments and names

Inside brackets of any kind an expression may go over several lines and hold every sort of comment.
Elsewhere it stays on its line, where only spaces, tabs and enclosed comments separate its parts.
-/
namespace TemplateCost.Template
open Text Text.Reader

inductive Spacing
  | inline
  | multiline
deriving DecidableEq

namespace Parser

def enclosedComment : Reader (List Char) := fun text => do
  let inner ← dropMark? ['/', '*'] text
  let (comment, rest) ← findMark? ['*', '/'] inner
  let ((), rest) ← word "*/" rest
  pure (['/', '*'] ++ comment ++ ['*', '/'], rest)

/-- Goes up to the end of the line and leaves the line end. A carriage return alone ends no line. -/
def lineComment : Reader (List Char) := do
  let mark ← (do word "#"; pure ['#']) <|> (do word "//"; pure ['/', '/'])
  let comment ← span fun c => c ≠ '\n' && c ≠ '\r'
  guardThat (← ahead (newline <|> atEnd))
  pure (mark ++ comment)

def blank : Spacing → Reader (List Char)
  | .inline => span1 (fun c => c = ' ' || c = '\t') <|> enclosedComment
  | .multiline =>
    span1 (fun c => c = ' ' || c = '\t' || c = '\n' || c = '\r') <|> enclosedComment <|> lineComment

/-- All blank text that stands here. -/
def blanks (spacing : Spacing) : Reader (List Char) := List.flatten <$> many (blank spacing)

def skipBlanks (spacing : Spacing) : Reader Unit := do let _ ← blanks spacing

/-- What `p` takes, with blanks before it. -/
def afterBlanks (spacing : Spacing) (p : Reader α) : Reader α := do skipBlanks spacing; p

def lineEnd : Reader Unit := do
  skipBlanks .inline
  let _ ← optional lineComment
  newline <|> atEnd

def identifier : Reader (List Char) := do
  let first ← next
  guardThat (startsIdentifier first)
  let rest ← span continuesIdentifier
  pure (first :: rest)

end Parser
end TemplateCost.Template
