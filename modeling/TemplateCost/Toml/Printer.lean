import TemplateCost.Decimal.Layout
import TemplateCost.Toml.Document

/-! # Text of TOML values

Strings aside, values are written on one line. A string takes the plainest quotes that need no escapes,
and double quotes with escapes where there are none; a tab is always escaped in double quotes. Text
of several lines starts on a line of its own.
-/
namespace TemplateCost.Toml

/-- Positional at every size, with a point and a zero after whole numbers. -/
def floatLayout : Decimal.Layout where
  tie := .up
  positional := none
  wholePoint := true
  exponentPlus := false
  notANumber := "nan"
  infinity := "inf"
  negativeInfinity := "-inf"

def padded (width n : Nat) : String :=
  let digits := Nat.toDigits 10 n
  String.ofList (List.replicate (width - digits.length) '0' ++ digits)

def dateText (date : Nat × Nat × Nat) : String :=
  padded 4 date.1 ++ "-" ++ padded 2 date.2.1 ++ "-" ++ padded 2 date.2.2

/-- Digits of a fraction of a second without the zeros at their end. -/
def fractionText (nanoseconds : Nat) : String :=
  if nanoseconds = 0 then "" else
    let digits := (padded 9 nanoseconds).toList.reverse.dropWhile (· = '0')
    "." ++ String.ofList digits.reverse

def timeText (time : Nat × Nat × Nat × Nat) : String :=
  padded 2 time.1 ++ ":" ++ padded 2 time.2.1 ++ ":" ++ padded 2 time.2.2.1 ++ fractionText time.2.2.2

def offsetText : Option Int → String
  | none => "Z"
  | some minutes => (if minutes < 0 then "-" else "+") ++ padded 2 (minutes.natAbs / 60) ++ ":"
      ++ padded 2 (minutes.natAbs % 60)

def timestampText (t : Timestamp) : String :=
  (t.date.map dateText).getD ""
    ++ (if t.date.isSome && t.time.isSome then "T" else "")
    ++ (t.time.map timeText).getD "" ++ (t.offset.map offsetText).getD ""

def isControl (c : Char) : Bool := (c.toNat < 0x20 && c ≠ '\t' && c ≠ '\n') || c.toNat = 0x7f

/-- The greatest number of quotes in a row. -/
def longestRun (quote : Char) (run best : Nat) : List Char → Nat
  | [] => max run best
  | c :: rest =>
    if c = quote then longestRun quote (run + 1) best rest else longestRun quote 0 (max run best) rest

def hexText (n : Nat) : List Char :=
  (Nat.toDigits 16 n).map Char.toUpper

def escapeChar (c : Char) : List Char :=
  if c = '\\' then ['\\', '\\']
  else if c = '\x08' then ['\\', 'b']
  else if c = '\t' then ['\\', 't']
  else if c = '\n' then ['\\', 'n']
  else if c = '\x0c' then ['\\', 'f']
  else if c = '\r' then ['\\', 'r']
  else if isControl c then
    let digits := hexText c.toNat
    ['\\', 'u'] ++ List.replicate (4 - digits.length) '0' ++ digits
  else [c]

/-- Text in double quotes, in which at most `allowed` quotes in a row stand as they are and `run` of
them come right before. -/
def escaped (allowed : Nat) (keepsLines : Bool) (run : Nat) : List Char → List Char
  | [] => []
  | c :: rest =>
    if c = '\x22' then
      if run < allowed then '\x22' :: escaped allowed keepsLines (run + 1) rest
      else '\\' :: '\x22' :: escaped allowed keepsLines 0 rest
    else if c = '\n' && keepsLines then '\n' :: escaped allowed keepsLines 0 rest
    else escapeChar c ++ escaped allowed keepsLines 0 rest

namespace Quotes

def basic (text : List Char) : List Char := '\x22' :: escaped 0 false 0 text ++ ['\x22']

def literal (text : List Char) : List Char := '\x27' :: text ++ ['\x27']

def tripled (quote : Char) (text inner : List Char) : List Char :=
  List.replicate 3 quote ++ (if text.contains '\n' then ['\n'] else []) ++ inner
    ++ List.replicate 3 quote

def basicLines (text : List Char) : List Char := tripled '\x22' text (escaped 2 true 0 text)

def literalLines (text : List Char) : List Char := tripled '\x27' text text

/-- Quotes on one line that need no escapes. -/
def plain? (text : List Char) : Option (List Char) :=
  if text.any isControl || text.contains '\n' then none
  else if !text.contains '\x22' && !text.contains '\\' then some (basic text)
  else if !text.contains '\x27' then some (literal text)
  else none

/-- Tripled quotes that need no escapes. -/
def severalLines? (text : List Char) : Option (List Char) :=
  if text.any isControl then none
  else if !text.contains '\\' && longestRun '\x22' 0 0 text ≤ 2 then some (basicLines text)
  else if longestRun '\x27' 0 0 text ≤ 2 then some (literalLines text)
  else none

end Quotes

def stringText (text : String) : String :=
  let cs := text.toList
  String.ofList (((Quotes.plain? cs).or (Quotes.severalLines? cs)).getD
    (if cs.contains '\n' then Quotes.basicLines cs else Quotes.basic cs))

def keyText (key : String) : String :=
  if key ≠ "" && key.toList.all Parser.isBareKey then key
  else String.ofList ((Quotes.plain? key.toList).getD (Quotes.basic key.toList))

mutual
def text : Toml → String
  | .string text => stringText text
  | .integer i => Decimal.integerText i
  | .float f => floatLayout.text f
  | .bool b => if b then "true" else "false"
  | .timestamp t => timestampText t
  | .array items => "[" ++ String.intercalate ", " (itemTexts items) ++ "]"
  | .table [] => "\x7b\x7d"
  | .table ((key, value) :: rest) =>
    "\x7b " ++ String.intercalate ", " ((keyText key ++ " = " ++ text value) :: entryTexts rest)
      ++ " \x7d"
def itemTexts : List Toml → List String
  | [] => []
  | item :: rest => text item :: itemTexts rest
def entryTexts : List (String × Toml) → List String
  | [] => []
  | (key, value) :: rest => (keyText key ++ " = " ++ text value) :: entryTexts rest
end

end TemplateCost.Toml
