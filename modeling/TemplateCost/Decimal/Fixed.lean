import TemplateCost.Decimal.Layout

/-! # Text with a fixed number of places

The exact value is rounded once, and a half goes to the even neighbour. A negative sign stays even
where all digits round to zero.
-/
namespace TemplateCost.Decimal

def roundHalfEven (numerator denominator : Nat) : Nat :=
  let down := numerator / denominator
  let rest := numerator % denominator
  if 2 * rest < denominator ∨ (2 * rest = denominator ∧ down % 2 = 0) then down else down + 1

def Binary64.places (places : Nat) (b : Binary64) : Nat :=
  roundHalfEven (b.numerator * Nat.pow 10 places) b.denominator

def fixedText (places : Nat) (f : Float) : String :=
  match Binary64.ofFloat? f with
  | some b =>
    let text := Nat.toDigits 10 (b.places places)
    let padded := List.replicate (places + 1 - text.length) '0' ++ text
    let whole := padded.length - places
    (if b.negative then "-" else "") ++ String.ofList (padded.take whole)
      ++ (if places = 0 then "" else "." ++ String.ofList (padded.drop whole))
  | none => plainText f

end TemplateCost.Decimal
