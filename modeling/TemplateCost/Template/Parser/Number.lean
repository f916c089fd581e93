import TemplateCost.Decimal.Binary64
import TemplateCost.Decimal.Scan
import TemplateCost.Template.Syntax

/-! # Number literals

A literal without fraction and exponent is a whole number below 2^64. Any other literal is rounded
to a double, which has to be finite; where its value is whole and in range it counts as a whole
number again. A whole number whose negation leaves the signed range is rounded to a double in the same way.
-/
namespace TemplateCost.Template
open Decimal Text Text.Reader

def Numeral.ofFloat (f : Float) : Numeral :=
  match Binary64.ofFloat? f with
  | none => .float f
  | some b =>
    if b.isIntegral ∧ -0x8000000000000000 ≤ b.truncate ∧ b.truncate < 0x10000000000000000 then
      .integer b.truncate
    else .float f

def Numeral.negate : Numeral → Numeral
  | .integer i =>
    if i ≤ 0x8000000000000000 then .integer (-i) else Numeral.ofFloat (-Float.ofInt i)
  | .float f => Numeral.ofFloat (-f)

namespace Parser

def number : Reader Numeral := do
  let whole ← span1 Char.isDigit
  let fraction ← optional (char '.' *> span1 Char.isDigit)
  let exponent ← optional exponentPart
  if fraction.isNone && exponent.isNone then
    guardThat (digitsValue whole < 0x10000000000000000)
    pure (.integer (digitsValue whole))
  else
    let f := (Parts.mk whole (fraction.getD []) (exponent.getD 0)).value
    guardThat f.isFinite
    pure (Numeral.ofFloat f)

end Parser
end TemplateCost.Template
