import TemplateCost.Template.Syntax

/-! # Pieces of written templates

What stands in a template is kept as a sequence of pieces, so that it can be written again. It is
written as it was read, but strings and literal text are escaped anew, and literal text only while a
quote is open: closing a quote ends this for all text after it, also where an outer quote is still
open. Two keys of an object are equal when they have the same pieces apart from blanks and leave no
gap, which is blank text that belongs to none of the expressions around it.
-/
namespace TemplateCost.Template

inductive Piece
  | mark (text : List Char)
  | number (n : Numeral) (text : List Char)
  | string (text : List Char)
  | literal (text : List Char)
  | openQuote
  | closeQuote
  | blank (text : List Char)
  | gap (text : List Char)
deriving DecidableEq

/-! ## Markers in literal text -/

/-- Markers with their first character doubled; any other pair of characters that starts like a marker
is passed over as a whole. -/
def doubledMarkers : List Char → List Char
  | '$' :: '{' :: rest => '$' :: '$' :: '{' :: doubledMarkers rest
  | '%' :: '{' :: rest => '%' :: '%' :: '{' :: doubledMarkers rest
  | '$' :: c :: rest => '$' :: c :: doubledMarkers rest
  | '%' :: c :: rest => '%' :: c :: doubledMarkers rest
  | c :: rest => c :: doubledMarkers rest
  | [] => []

def startsMarker : List Char → Bool
  | '$' :: '{' :: _ => true
  | '%' :: '{' :: _ => true
  | _ => false

/-- Doubles markers from the first one on. -/
def escapedMarkers : List Char → List Char
  | [] => []
  | c :: rest =>
    if startsMarker (c :: rest) then doubledMarkers (c :: rest) else c :: escapedMarkers rest

/-! ## Quoted text -/

def escapedChar (c : Char) : List Char :=
  if c = '\x22' then ['\\', '\x22']
  else if c = '\\' then ['\\', '\\']
  else if c = '\x08' then ['\\', 'b']
  else if c = '\t' then ['\\', 't']
  else if c = '\n' then ['\\', 'n']
  else if c = '\x0c' then ['\\', 'f']
  else if c = '\r' then ['\\', 'r']
  else if c.toNat < 0x20 then
    ['\\', 'u', '0', '0'] ++ Nat.toDigits 16 (c.toNat / 16) ++ Nat.toDigits 16 (c.toNat % 16)
  else [c]

def escapedText (text : List Char) : List Char := (escapedMarkers text).flatMap escapedChar

namespace Piece

/-- The text of pieces, where `quoted` says whether a quote is open. -/
def textOf (quoted : Bool) : List Piece → List Char
  | [] => []
  | mark text :: rest => text ++ textOf quoted rest
  | number _ text :: rest => text ++ textOf quoted rest
  | string text :: rest => '\x22' :: escapedText text ++ '\x22' :: textOf quoted rest
  | literal text :: rest =>
    (if quoted then escapedText text else escapedMarkers text) ++ textOf quoted rest
  | openQuote :: rest => '\x22' :: textOf true rest
  | closeQuote :: rest => '\x22' :: textOf false rest
  | blank text :: rest => text ++ textOf quoted rest
  | gap text :: rest => text ++ textOf quoted rest

def isGap : Piece → Bool
  | gap _ => true
  | _ => false

/-- What a piece stands for; a number may be written in several ways, and a blank stands for nothing. -/
def sense? : Piece → Option Piece
  | blank _ => none
  | number n _ => some (number n [])
  | piece => some piece

/-- Whether keys that are written with these pieces are equal. -/
def sameKey (key other : List Piece) : Bool :=
  key.filterMap sense? = other.filterMap sense? && !key.any isGap

end Piece

/-- No key stands twice in an object. -/
def distinctKeys : List (List Piece) → Bool
  | [] => true
  | key :: rest => rest.all (fun other => !Piece.sameKey key other) && distinctKeys rest

/-- An element of a template together with the pieces that it is written with. -/
structure Part where
  element : Element
  pieces : List Piece

namespace Part

def literal (text : List Char) : Part := ⟨.literal (String.ofList text), [.literal text]⟩

/-- The text of a literal. -/
def literalText? (part : Part) : Option (List Char) :=
  match part.element with
  | .literal text => some text.toList
  | _ => none

/-- Parts with literal text added at their end. -/
def append (text : List Char) : List Part → List Part
  | [] => [literal text]
  | [last] =>
    match last.literalText? with
    | some before => [literal (before ++ text)]
    | none => [last, literal text]
  | part :: rest => part :: append text rest

def elements (parts : List Part) : List Element := parts.map element

/-- The text of a template without quotes around it. -/
def bareText (parts : List Part) : List Char := Piece.textOf false (parts.flatMap pieces)

end Part
end TemplateCost.Template
