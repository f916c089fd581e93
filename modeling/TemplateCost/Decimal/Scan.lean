import TemplateCost.Decimal.Integer
import TemplateCost.Text.Reader

/-! # Reading decimals

A decimal is rounded once, to the nearest double. Exponents beyond the range of doubles are cut off
before any power is formed: such a value is zero or infinite whatever its digits are.
-/
namespace TemplateCost.Decimal

def infinity : Float := 1.0 / 0.0
def notANumber : Float := 0.0 / 0.0

/-- The double nearest to `significand · 10 ^ exponent`. -/
def nearest (significand : Nat) (exponent : Int) : Float :=
  let leading := exponent + ((Nat.toDigits 10 significand).length : Int)
  if significand = 0 then 0.0
  else if 400 < leading then infinity
  else if leading < -400 then 0.0
  else Float.ofScientific significand (exponent < 0) exponent.natAbs

/-- Digits before and after the point, and the exponent. -/
structure Parts where
  whole : List Char
  fraction : List Char
  exponent : Int

def Parts.value (p : Parts) : Float :=
  nearest (digitsValue (p.whole ++ p.fraction)) (p.exponent - p.fraction.length)

open Text Text.Reader

def exponentPart : Reader Int := do
  char 'e' <|> char 'E'
  let sign ← optional (char '+' *> pure 1 <|> char '-' *> pure (-1))
  let digits ← span1 Char.isDigit
  pure (sign.getD 1 * (digitsValue digits : Int))

/-- A decimal with a digit on at least one side of an optional point. -/
def looseParts : Reader Parts := do
  let whole ← span Char.isDigit
  let fraction ← (char '.' *> span Char.isDigit) <|> pure []
  guardThat (!(whole.isEmpty && fraction.isEmpty))
  let exponent ← exponentPart <|> pure 0
  pure ⟨whole, fraction, exponent⟩

def lowerAscii (text : List Char) : List Char := text.map Char.toLower

def unsignedFloat? (text : List Char) : Option Float :=
  if lowerAscii text = "nan".toList then some notANumber
  else if lowerAscii text = "inf".toList ∨ lowerAscii text = "infinity".toList then some infinity
  else (whole? looseParts text).map Parts.value

/-- An optional sign, then a decimal or a word for infinity or for what is not a number. -/
def readFloat? : List Char → Option Float
  | '+' :: text => unsignedFloat? text
  | '-' :: text => (unsignedFloat? text).map fun f => -f
  | text => unsignedFloat? text

def negateIf (negative : Bool) (f : Float) : Float := if negative then -f else f

end TemplateCost.Decimal
