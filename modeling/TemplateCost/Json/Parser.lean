import TemplateCost.Decimal.Scan
import TemplateCost.Json.Basic
import TemplateCost.Text.Escape

/-! # Reading JSON

Containers nest at most 127 deep. An integer that fits in 64 bits, with or without a sign, stays an
integer; every other number becomes a double. For a double the leading digits that fit in 64 bits
are kept, rounded once, and scaled by one power of ten; a result beyond the doubles is an error.
-/
namespace TemplateCost.Json
open Text Text.Reader

def isSpace (c : Char) : Bool := c = ' ' || c = '\n' || c = '\t' || c = '\r'

def spaces : Reader Unit := do let _ ← span isSpace

def isHighHalf (unit : Nat) : Bool := 0xd800 ≤ unit && unit < 0xdc00
def isLowHalf (unit : Nat) : Bool := 0xdc00 ≤ unit && unit < 0xe000

def joinHalves (high low : Nat) : Char :=
  Char.ofNat (0x10000 + (high - 0xd800) * 0x400 + (low - 0xdc00))

def consTo (c : Char) (tail : Option (List Char × List Char)) : Option (List Char × List Char) :=
  tail.map fun (text, rest) => (c :: text, rest)

/-- The text up to the closing quote, and what follows it. A code unit of a pair stands only beside
its other half. -/
def stringTail : List Char → Option (List Char × List Char)
  | [] => none
  | '\x22' :: rest => some ([], rest)
  | '\\' :: 'u' :: a :: b :: c :: d :: rest =>
    match hexValue? [a, b, c, d] with
    | none => none
    | some unit =>
      if isHighHalf unit then
        match rest with
        | '\\' :: 'u' :: e :: f :: g :: h :: rest =>
          match hexValue? [e, f, g, h] with
          | none => none
          | some low =>
            if isLowHalf low then consTo (joinHalves unit low) (stringTail rest) else none
        | _ => none
      else if isLowHalf unit then none
      else consTo (Char.ofNat unit) (stringTail rest)
  | '\\' :: e :: rest =>
    match unescape? e with
    | none => none
    | some c => consTo c (stringTail rest)
  | c :: rest => if c.toNat < 0x20 then none else consTo c (stringTail rest)

def quoted : Reader String := do
  char '\x22'
  let text ← stringTail
  pure (String.ofList text)

def greatestSignificand : Nat := 0xffffffffffffffff

/-- Leading digits while they fit in 64 bits, and the number of digits left over. -/
def wholeSignificand (significand : Nat) : List Char → Nat × Nat
  | [] => (significand, 0)
  | c :: rest =>
    let longer := 10 * significand + (c.toNat - '0'.toNat)
    if greatestSignificand < longer then (significand, rest.length + 1)
    else wholeSignificand longer rest

/-- Further digits while they fit in 64 bits, and the number of digits taken. -/
def fractionSignificand (significand taken : Nat) : List Char → Nat × Nat
  | [] => (significand, taken)
  | c :: rest =>
    let longer := 10 * significand + (c.toNat - '0'.toNat)
    if greatestSignificand < longer then (significand, taken)
    else fractionSignificand longer (taken + 1) rest

def powerOfTen (n : Nat) : Float := Float.ofScientific 1 false n

/-- One multiplication or division by a power of ten, two divisions far below one. -/
def scale? (f : Float) (exponent : Int) : Option Float :=
  if 308 < exponent then (if f == 0 then some f else none)
  else if 0 ≤ exponent then
    let product := f * powerOfTen exponent.toNat
    if product.isInf then none else some product
  else if -308 ≤ exponent then some (f / powerOfTen (-exponent).toNat)
  else if -616 ≤ exponent then some (f / powerOfTen 308 / powerOfTen (-exponent - 308).toNat)
  else some 0

def float? (negative : Bool) (whole fraction : List Char) (exponent : Int) : Option Float :=
  let (leading, skipped) := wholeSignificand 0 whole
  let (significand, taken) := fractionSignificand leading 0 fraction
  (scale? (Float.ofNat significand) ((skipped : Int) - taken + exponent)).map
    (Decimal.negateIf negative)

def number : Reader Json := do
  let negative := ((← optional (char '-')).isSome)
  let whole ← span1 Char.isDigit
  guardThat (whole.length = 1 || whole.head? ≠ some '0')
  let fraction ← optional (char '.' *> span1 Char.isDigit)
  let exponent ← optional Decimal.exponentPart
  guardThat !(← ahead (char '.' <|> char 'e' <|> char 'E'))
  let value := Decimal.digitsValue whole
  let signed : Int := if negative then -(value : Int) else value
  if fraction.isNone && exponent.isNone && value ≤ greatestSignificand
      && (!negative || (0 < value && Decimal.inInt64 signed)) then
    pure (.int signed)
  else
    let f ← (float? negative whole (fraction.getD []) (exponent.getD 0) : Option Float)
    pure (.float f)

def field (value : Reader Json) : Reader (String × Json) := do
  let key ← quoted
  spaces; char ':'; spaces
  pure (key, ← value)

/-- Items divided by commas up to the closing character. -/
def items (item : Reader α) (close : Char) : Reader (List α) := do
  spaces
  let list ← (do
    let first ← item
    let more ← many (do spaces; char ','; spaces; item)
    pure (first :: more)) <|> pure []
  spaces; char close
  pure list

/-- A value with at most `levels` containers around any of its parts. -/
def value : Nat → Reader Json
  | 0 => scalar
  | levels + 1 => do
    match ← peek? with
    | some '[' => next *> (Json.array <$> items (value levels) ']')
    | some '{' => next *> (Json.object <$> items (field (value levels)) '}')
    | _ => scalar
where
  scalar : Reader Json := do
    match ← peek? with
    | some '\x22' => Json.string <$> quoted
    | some 'n' => word "null" *> pure .null
    | some 't' => word "true" *> pure (.bool true)
    | some 'f' => word "false" *> pure (.bool false)
    | _ => number

def deepest : Nat := 127

def parse? (text : List Char) : Option Json :=
  whole? (do spaces; let v ← value deepest; spaces; pure v) text

end TemplateCost.Json
