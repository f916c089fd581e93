import TemplateCost.Decimal.Integer
import TemplateCost.Text.Blank
import TemplateCost.Value.Basic

/-! # Multiplicity

How many instances a block stands for. `for_each` decides alone where it is given; otherwise `count`
does. A count is unknown where no integer can be read from it, and so is either of the two where its
evaluation failed.
-/
namespace TemplateCost.Multiplicity
open Decimal

def ofCount? : Value → Option Int64
  | .number (.int i) => some i
  | .number (.float f) => (Binary64.ofFloat? f).map fun b => clampInt64 b.truncate
  | .string text => readInt64? (Text.trim text.toList)
  | _ => none

/-- Entries of a map or a list; any other shape stands for one instance. -/
def ofForEach : Value → Int64
  | .map entries => Int64.ofInt entries.length
  | .list items => Int64.ofInt items.length
  | _ => 1

def instances? (count forEach : Option (Except ε Value)) : Option Int64 :=
  match forEach, count with
  | some (.ok value), _ => some (ofForEach value)
  | some (.error _), _ => none
  | none, some (.ok value) => ofCount? value
  | none, some (.error _) => none
  | none, none => some 1

end TemplateCost.Multiplicity
