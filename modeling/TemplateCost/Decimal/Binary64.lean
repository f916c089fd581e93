/-! # Doubles as exact numbers

A finite double is a signed multiple of a power of two. All conversions to integers and to decimal
text start from this exact value, so that each is a statement on natural numbers.
-/
namespace TemplateCost.Decimal

/-- The number `mantissa · 2 ^ exponent`, negated when `negative`. -/
structure Binary64 where
  negative : Bool
  mantissa : Nat
  exponent : Int
deriving DecidableEq, Repr

namespace Binary64

def smallestNormal : Nat := 0x10000000000000
def leastExponent : Int := -1074

/-- The exact value of a finite double; `none` for infinities and for what is not a number. -/
def ofFloat? (f : Float) : Option Binary64 :=
  let bits : Nat := f.toBits.toNat
  let fraction : Nat := bits % 0x10000000000000
  let field : Nat := bits / 0x10000000000000 % 0x800
  let negative : Bool := bits / 0x8000000000000000 = 1
  if field = 2047 then none
  else if field = 0 then some ⟨negative, fraction, leastExponent⟩
  else some ⟨negative, fraction + smallestNormal, (field : Int) + (leastExponent - 1)⟩

/-- Numerator and denominator of the absolute value. -/
def numerator (b : Binary64) : Nat := b.mantissa * Nat.pow 2 b.exponent.toNat
def denominator (b : Binary64) : Nat := Nat.pow 2 (-b.exponent).toNat

def isIntegral (b : Binary64) : Bool := b.numerator % b.denominator = 0

/-- The value without its fraction. -/
def truncate (b : Binary64) : Int :=
  let whole := b.numerator / b.denominator
  if b.negative then -(whole : Int) else whole

theorem denominator_pos (b : Binary64) : 0 < b.denominator := Nat.pow_pos (by decide)

end Binary64
end TemplateCost.Decimal
