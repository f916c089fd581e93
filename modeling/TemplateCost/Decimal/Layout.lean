import TemplateCost.Decimal.Integer
import TemplateCost.Decimal.Shortest

/-! # Decimal text of doubles

Which digits are written is settled by `shortest`; a layout holds what a format decides on its own:
the tie, the range of positional notation, a point and zero after whole numbers, the sign of
exponents and the words for values that are not finite.
-/
namespace TemplateCost.Decimal

structure Layout where
  tie : Tie
  /-- Bounds on the exponent of the leading digit; outside them an exponent is written. -/
  positional : Option (Int × Int)
  wholePoint : Bool
  exponentPlus : Bool
  notANumber : String
  infinity : String
  negativeInfinity : String

def zeros (n : Nat) : String := String.ofList (List.replicate n '0')

def positionalText (wholePoint : Bool) (d : Digits) : String :=
  let text := Nat.toDigits 10 d.significand
  if 0 ≤ d.exponent then
    String.ofList text ++ (if d.significand = 0 then "" else zeros d.exponent.toNat)
      ++ (if wholePoint then ".0" else "")
  else
    let places := (-d.exponent).toNat
    let whole := text.length - places
    if text.length ≤ places then "0." ++ zeros (places - text.length) ++ String.ofList text
    else String.ofList (text.take whole) ++ "." ++ String.ofList (text.drop whole)

def scientificText (exponentPlus : Bool) (d : Digits) : String :=
  let text := Nat.toDigits 10 d.significand
  let exponent := d.exponent + (text.length : Int) - 1
  String.ofList (text.take 1)
    ++ (if text.length ≤ 1 then "" else "." ++ String.ofList (text.drop 1))
    ++ "e" ++ (if exponentPlus && 0 ≤ exponent then "+" else "") ++ integerText exponent

def Layout.digitsText (layout : Layout) (d : Digits) : String :=
  let leading := d.exponent + (decimalLength d.significand : Int) - 1
  match layout.positional with
  | none => positionalText layout.wholePoint d
  | some (low, high) =>
    if low ≤ leading ∧ leading < high then positionalText layout.wholePoint d
    else scientificText layout.exponentPlus d

def Layout.text (layout : Layout) (f : Float) : String :=
  match Binary64.ofFloat? f with
  | some b => (if b.negative then "-" else "") ++ layout.digitsText (shortest layout.tie b)
  | none =>
    if f.isNaN then layout.notANumber
    else if f < 0 then layout.negativeInfinity else layout.infinity

/-- Positional at every size, with no point after whole numbers. -/
def plain : Layout where
  tie := .up
  positional := none
  wholePoint := false
  exponentPlus := false
  notANumber := "NaN"
  infinity := "inf"
  negativeInfinity := "-inf"

def plainText (f : Float) : String := plain.text f

end TemplateCost.Decimal
