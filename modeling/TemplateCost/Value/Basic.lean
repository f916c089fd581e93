import TemplateCost.Decimal.Integer
import TemplateCost.Decimal.Binary64
import TemplateCost.Entries

/-! # Values

A value is what an expression of a template stands for once it has been evaluated. Placeholders
stand for what was left open on purpose and carry a readable token. Whole numbers are kept apart
from other doubles, so that counts stay exact.
-/
namespace TemplateCost

inductive Number where
  | int (i : Int64)
  | float (f : Float)
deriving DecidableEq

inductive Value where
  | bool (b : Bool)
  | number (n : Number)
  | string (text : String)
  | list (items : List Value)
  | map (entries : List (String × Value))
  | placeholder (token : String)
deriving Inhabited

open Decimal

/-- A whole double in the range -2^63 to 2^63 becomes an integer; the upper end, which is one more
than the greatest integer, becomes that integer. -/
def Number.ofFloat (f : Float) : Number :=
  match Binary64.ofFloat? f with
  | none => .float f
  | some b =>
    if b.isIntegral ∧ -0x8000000000000000 ≤ b.truncate ∧ b.truncate ≤ 0x8000000000000000 then
      .int (clampInt64 b.truncate)
    else .float f

def Number.toFloat : Number → Float
  | .int i => Float.ofInt i.toInt
  | .float f => f

namespace Value

def int (i : Int64) : Value := .number (.int i)
def float (f : Float) : Value := .number (.float f)

def string? : Value → Option String
  | .string text => some text
  | _ => none

/-- Induction with the parts of a list or a map as members. -/
@[elab_as_elim]
theorem induction {motive : Value → Prop} (bool : ∀ b, motive (.bool b))
    (number : ∀ n, motive (.number n)) (string : ∀ text, motive (.string text))
    (list : ∀ items, (∀ item ∈ items, motive item) → motive (.list items))
    (map : ∀ entries : Entries Value, (∀ entry ∈ entries, motive entry.2) → motive (.map entries))
    (placeholder : ∀ token, motive (.placeholder token)) (v : Value) : motive v := by
  refine Value.rec (motive_1 := motive) (motive_2 := fun items => ∀ item ∈ items, motive item)
    (motive_3 := fun entries => ∀ entry ∈ entries, motive entry.2) (motive_4 := fun entry => motive entry.2)
    bool number string (fun items => list items) (fun entries => map entries) placeholder ?_ ?_ ?_ ?_ ?_ v
  · nofun
  · intro item items hitem hitems
    exact List.forall_mem_cons.mpr ⟨hitem, hitems⟩
  · nofun
  · intro entry entries hentry hentries
    exact List.forall_mem_cons.mpr ⟨hentry, hentries⟩
  · intro key value hvalue
    exact hvalue

end Value
end TemplateCost
