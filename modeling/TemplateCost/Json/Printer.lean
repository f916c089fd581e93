import TemplateCost.Decimal.Layout
import TemplateCost.Json.Basic

/-! # JSON text

Two forms are written: the compact form without blanks and the indented form with two spaces a
level. Only quotes, backslashes and control characters are escaped.
-/
namespace TemplateCost.Json

/-- Shortest digits, positional from five places after the point up to sixteen before it. -/
def numberLayout : Decimal.Layout where
  tie := .even
  positional := some (-5, 16)
  wholePoint := true
  exponentPlus := true
  notANumber := "null"
  infinity := "null"
  negativeInfinity := "null"

def hexDigit (n : Nat) : Char := Nat.digitChar n

def escapeChar (c : Char) : List Char :=
  if c = '\x22' then ['\\', '\x22']
  else if c = '\\' then ['\\', '\\']
  else if c = '\x08' then ['\\', 'b']
  else if c = '\x0c' then ['\\', 'f']
  else if c = '\n' then ['\\', 'n']
  else if c = '\r' then ['\\', 'r']
  else if c = '\t' then ['\\', 't']
  else if c.toNat < 0x20 then
    ['\\', 'u', '0', '0', hexDigit (c.toNat / 16), hexDigit (c.toNat % 16)]
  else [c]

def stringText (text : String) : List Char :=
  '\x22' :: (text.toList.flatMap escapeChar ++ ['\x22'])

def scalarText : Json → List Char
  | .null => "null".toList
  | .bool b => (if b then "true" else "false").toList
  | .int i => (Decimal.integerText i).toList
  | .float f => (numberLayout.text f).toList
  | .string text => stringText text
  | .array _ => "[]".toList
  | .object _ => "\x7b\x7d".toList

/-- Parts divided by a separator. -/
def joined (separator : List Char) : List (List Char) → List Char
  | [] => []
  | [part] => part
  | part :: rest => part ++ separator ++ joined separator rest

mutual
def compact : Json → List Char
  | .array items => '[' :: (joined [','] (compactItems items) ++ [']'])
  | .object fields => '{' :: (joined [','] (compactFields fields) ++ ['}'])
  | .null => scalarText .null
  | .bool b => scalarText (.bool b)
  | .int i => scalarText (.int i)
  | .float f => scalarText (.float f)
  | .string text => scalarText (.string text)
def compactItems : List Json → List (List Char)
  | [] => []
  | item :: rest => compact item :: compactItems rest
def compactFields : List (String × Json) → List (List Char)
  | [] => []
  | (key, value) :: rest => (stringText key ++ ':' :: compact value) :: compactFields rest
end

def lineBreak (level : Nat) : List Char := '\n' :: List.replicate (2 * level) ' '

mutual
/-- The indented form; an empty container stays on one line. -/
def indented (level : Nat) : Json → List Char
  | .array [] => "[]".toList
  | .object [] => "\x7b\x7d".toList
  | .array (item :: rest) =>
    '[' :: (lineBreak (level + 1) ++ joined (',' :: lineBreak (level + 1))
      (indented (level + 1) item :: indentedItems (level + 1) rest) ++ lineBreak level ++ [']'])
  | .object ((key, value) :: rest) =>
    '{' :: (lineBreak (level + 1) ++ joined (',' :: lineBreak (level + 1))
      ((stringText key ++ ':' :: ' ' :: indented (level + 1) value)
        :: indentedFields (level + 1) rest) ++ lineBreak level ++ ['}'])
  | .null => scalarText .null
  | .bool b => scalarText (.bool b)
  | .int i => scalarText (.int i)
  | .float f => scalarText (.float f)
  | .string text => scalarText (.string text)
def indentedItems (level : Nat) : List Json → List (List Char)
  | [] => []
  | item :: rest => indented level item :: indentedItems level rest
def indentedFields (level : Nat) : List (String × Json) → List (List Char)
  | [] => []
  | (key, value) :: rest =>
    (stringText key ++ ':' :: ' ' :: indented level value) :: indentedFields level rest
end

def compactText (document : Json) : String := String.ofList (compact document)
def indentedText (document : Json) : String := String.ofList (indented 0 document)

end TemplateCost.Json
