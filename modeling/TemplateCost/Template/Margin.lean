import TemplateCost.Template.Piece
import TemplateCost.Text.Blank
import TemplateCost.Text.Search

/-! # Margins of indented heredocs

An indented heredoc loses the margin that its literals share. Every literal has a margin of its own:
the fewest blanks before any of its lines that are not empty, where a literal after another part
does not own its first line. A literal without margin does not count, and lines lose as many
characters as the margin is wide, blank or not. A part that is no literal and stands at the start of
a line keeps the whole text as it is.
-/
namespace TemplateCost.Template.Margin
open Text

def withoutReturn (line : List Char) : List Char :=
  if line.getLast? = some '\r' then line.dropLast else line

/-- Lines of a literal, where only the last one has no line end of its own. -/
def lines (text : List Char) : List (List Char) :=
  let all := pieces '\n' text
  all.dropLast.map withoutReturn ++ [all.getLastD []]

/-- The first lines that a literal shares with the part before it, and the lines that start in it. -/
def ownLines (isFirst : Bool) (text : List Char) : List (List Char) × List (List Char) :=
  (lines text).splitAt (if isFirst then 0 else 1)

def indentOf (line : List Char) : Option Nat :=
  if line.isEmpty then none else some (line.takeWhile isBlank).length

def ofLiteral (isFirst : Bool) (text : List Char) : Nat :=
  (((ownLines isFirst text).2.filterMap indentOf).min?).getD 0

def shifted (margin : Nat) (isFirst : Bool) (text : List Char) : List Char :=
  let (shared, own) := ownLines isFirst text
  (List.intersperse ['\n'] (shared ++ own.map (List.drop margin))).flatten

def endsLine (text : List Char) : Bool := text.getLast? = some '\n'

/-- Whether a part that is no literal starts a line. -/
def isBroken (lineStart : Bool) : List Part → Bool
  | [] => false
  | part :: rest =>
    match part.literalText? with
    | some text => isBroken (endsLine text) rest
    | none => lineStart || isBroken false rest

def ofParts (isFirst : Bool) : List Part → List Nat
  | [] => []
  | part :: rest =>
    ((part.literalText?.map (ofLiteral isFirst)).filter (0 < ·)).toList ++ ofParts false rest

def shiftedParts (margin : Nat) (isFirst : Bool) : List Part → List Part
  | [] => []
  | part :: rest =>
    (match part.literalText? with
    | some text => Part.literal (shifted margin isFirst text)
    | none => part) :: shiftedParts margin false rest

def remove (parts : List Part) : List Part :=
  if isBroken true parts then parts
  else match (ofParts true parts).min? with
    | none => parts
    | some margin => shiftedParts margin true parts

end TemplateCost.Template.Margin
