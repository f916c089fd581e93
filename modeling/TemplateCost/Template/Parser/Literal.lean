import TemplateCost.Template.Parser.Blank
import TemplateCost.Text.Escape

/-! # Literal text of templates

Literal text differs with its surroundings: quoted text has escapes and ends at a quote, the text of
a heredoc ends before the line that holds its label, and the body of a directive is plain. All of
them end at a marker, which a doubled first character turns into text.
-/
namespace TemplateCost.Template.Parser
open Text Text.Reader

def escape : Reader Char := do
  char '\\'
  match ← next with
  | 'u' => numbered 4
  | 'U' => numbered 8
  | c => (unescape? c : Option Char)

def marker : Reader Unit := word "$\x7b" <|> word "%\x7b"

/-- A doubled first character stands for a marker that is text. -/
def literalPiece (char : Reader Char) (stop : Reader Unit) : Reader (List Char) :=
  (word "$$\x7b" *> pure ['$', '{']) <|> (word "%%\x7b" *> pure ['%', '{']) <|> (do
    guardThat !(← ahead (marker <|> stop))
    pure [← char])

def literal (char : Reader Char) (stop : Reader Unit) : Reader (List Char) := do
  let taken ← many (literalPiece char stop)
  guardThat !taken.isEmpty
  pure taken.flatten

def quotedLiteral : Reader (List Char) :=
  literal (do if ← ahead (char '\\') then escape else next) (char '\x22')

def plainLiteral : Reader (List Char) := literal next failure

/-- The end of a heredoc: blanks and the label, which no longer name may start with. -/
def terminator (label : String) : Reader (List Char) := do
  let blanks ← span fun c => c = ' ' || c = '\t'
  word label
  guardThat !((← peek?).any continuesIdentifier)
  pure blanks

def heredocLiteral (label : String) : Reader (List Char) :=
  literal next (do newline; let _ ← terminator label)

def plainText : Reader String := do
  char '\x22'
  let text ← optional quotedLiteral
  char '\x22'
  pure (String.ofList (text.getD []))

end TemplateCost.Template.Parser
