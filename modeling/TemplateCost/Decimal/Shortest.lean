import TemplateCost.Decimal.Binary64

/-! # The fewest digits that read back

Every double owns the interval of reals that round to it; the ends belong to it exactly when the
mantissa is even. For one digit, two digits and so on, the two neighbours of the value on that
decimal grid are tested against the interval. The first grid with a neighbour inside gives the
digits; of two neighbours inside the nearer one is taken, and the format decides an exact tie.
-/
namespace TemplateCost.Decimal

/-- The number `significand · 10 ^ exponent`. -/
structure Digits where
  significand : Nat
  exponent : Int
deriving DecidableEq, Repr

inductive Tie
  | up
  | even
deriving DecidableEq, Repr

def decimalLength (n : Nat) : Nat := (Nat.toDigits 10 n).length

namespace Binary64

/-- The rounding interval in quarters of a unit of the last place: below, value, above. -/
def quarters (b : Binary64) : Nat × Nat × Nat :=
  let value := 4 * b.mantissa
  let below := if b.mantissa = smallestNormal ∧ leastExponent < b.exponent then 1 else 2
  (value - below, value, value + 2)

/-- The exponent `e` with `10 ^ (e - 1) ≤ value < 10 ^ e`, for a value that is not zero. -/
def magnitude (b : Binary64) : Int :=
  let whole := b.numerator / b.denominator
  if 0 < whole then decimalLength whole
  else 1 - (decimalLength ((b.denominator + b.numerator - 1) / b.numerator - 1) : Int)

/-- The neighbour of the value on the grid `10 ^ exponent`, if one lies in the interval. -/
def onGrid? (tie : Tie) (b : Binary64) (exponent : Int) : Option Digits :=
  let (low, value, high) := b.quarters
  let scale := b.exponent - 2
  let unit := Nat.pow 2 scale.toNat * Nat.pow 10 (-exponent).toNat
  let step := Nat.pow 2 (-scale).toNat * Nat.pow 10 exponent.toNat
  let isIn (c : Nat) : Bool :=
    if b.mantissa % 2 = 0 then low * unit ≤ c * step && c * step ≤ high * unit
    else low * unit < c * step && c * step < high * unit
  let down := value * unit / step
  let up := down + 1
  let toDown := value * unit - down * step
  let toUp := up * step - value * unit
  let upNearer := toUp < toDown ||
    (toUp = toDown && match tie with | .up => true | .even => up % 2 = 0)
  match isIn down && 0 < down, isIn up with
  | true, true => some ⟨if upNearer then up else down, exponent⟩
  | true, false => some ⟨down, exponent⟩
  | false, true => some ⟨up, exponent⟩
  | false, false => none

end Binary64

/-- Drops the zeros that a step up to the next power of ten leaves behind. -/
def Digits.normalize (d : Digits) : Digits :=
  if 10 ≤ d.significand ∧ d.significand % 10 = 0 then
    ⟨d.significand / 10, d.exponent + 1⟩
  else d

def shortest (tie : Tie) (b : Binary64) : Digits :=
  if b.mantissa = 0 then ⟨0, 0⟩
  else
    let top := b.magnitude
    let found := (List.range 17).findSome? fun (n : Nat) => b.onGrid? tie (top - 1 - n)
    (found.getD ⟨b.numerator / b.denominator, 0⟩).normalize

end TemplateCost.Decimal
