import TemplateCost.Template.Evaluate

/-! # Attributes of a body

The values of a body, with each nested block as a map under its kind. Attributes without a value and
blocks without entries are left out; of several blocks of one kind the last that is left counts.
-/
namespace TemplateCost.Template

def Expr.value? (env : Environment) (e : Expr) : Option Value := (e.eval env).toOption

def evaluated (env : Environment) (attributes : List (String × Expr)) : List (String × Value) :=
  attributes.filterMap fun entry => (entry.2.value? env).map fun value => (entry.1, value)

mutual
def Body.values (env : Environment) : Body → Entries Value
  | .mk attributes blocks =>
    Entries.overlay (Entries.ofList (evaluated env attributes)) (Block.entries env blocks)
def Block.entries (env : Environment) : List Block → List (String × Value)
  | [] => []
  | .mk kind _ body :: rest =>
    match Body.values env body with
    | [] => Block.entries env rest
    | inner => (kind, .map inner) :: Block.entries env rest
end

end TemplateCost.Template
