/-! # Signed 64-bit integers and digit strings

Digits are the ten ASCII digits. A signed integer is an optional sign and at least one digit; it is
read only when its value lies in the 64-bit range. Clamping takes the nearest value of the range.
-/
namespace TemplateCost.Decimal

def digitsValue (digits : List Char) : Nat :=
  digits.foldl (fun value c => 10 * value + (c.toNat - '0'.toNat)) 0

def readDigits? (text : List Char) : Option Nat :=
  if text ≠ [] ∧ text.all Char.isDigit then some (digitsValue text) else none

def readInteger? : List Char → Option Int
  | '+' :: digits => (readDigits? digits).map Int.ofNat
  | '-' :: digits => (readDigits? digits).map fun n => -(n : Int)
  | digits => (readDigits? digits).map Int.ofNat

def inInt64 (i : Int) : Bool := -0x8000000000000000 ≤ i && i < 0x8000000000000000

def toInt64? (i : Int) : Option Int64 := if inInt64 i then some (Int64.ofInt i) else none

def clampInt64 (i : Int) : Int64 :=
  if i < -0x8000000000000000 then Int64.minValue
  else if 0x8000000000000000 ≤ i then Int64.maxValue
  else Int64.ofInt i

def readInt64? (text : List Char) : Option Int64 := readInteger? text >>= toInt64?

/-- A position in a list: an optional plus sign and digits, below 2^64. -/
def readIndex? (text : List Char) : Option Nat := do
  let n ← readDigits? (match text with | '+' :: digits => digits | digits => digits)
  if n < 0x10000000000000000 then some n else none

def natText (n : Nat) : String := String.ofList (Nat.toDigits 10 n)

def integerText (i : Int) : String :=
  if i < 0 then "-" ++ natText i.natAbs else natText i.natAbs

def int64Text (i : Int64) : String := integerText i.toInt

end TemplateCost.Decimal
