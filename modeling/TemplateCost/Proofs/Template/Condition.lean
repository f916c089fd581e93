import TemplateCost.Template.Evaluate

/-! # Choices between two expressions

A conditional on a comparison evaluates the left side, then the right side, then compares, and only then
evaluates the branch that it selects. The first of these that fails is the outcome of the whole. Values
are compared by their display texts, so the sides of a comparison can change places, and the opposite
comparison selects the other branch.
-/
namespace TemplateCost.Template

/-- The conditional on a comparison. -/
abbrev Expr.choice (op : BinaryOp) (left right yes no : Expr) : Expr :=
  .conditional (.binary op left right) yes no

namespace BinaryOp

theorem compare_comm (op : BinaryOp) (u v : Value) : op.compare u v = op.compare v u := by
  cases op <;> simp [compare, eq_comm]

theorem compare_notEqual (u v : Value) :
    BinaryOp.notEqual.compare u v = (BinaryOp.equal.compare u v).map not := by
  simp [compare, Except.map]

/-- Only equality and its opposite have an outcome. -/
theorem compare_of_ne {op : BinaryOp} (hequal : op ≠ .equal) (hnotEqual : op ≠ .notEqual)
    (u v : Value) : op.compare u v = .error (.operator op) := by
  cases op with
  | equal => exact absurd rfl hequal
  | notEqual => exact absurd rfl hnotEqual
  | _ => rfl

end BinaryOp

namespace Expr
variable (env : Environment) (left right yes no : Expr)

/-- The order in which a choice is evaluated. -/
theorem eval_choice (op : BinaryOp) : (choice op left right yes no).eval env = (do
    let u ← left.eval env
    let v ← right.eval env
    if ← op.compare u v then yes.eval env else no.eval env) := by
  rw [eval, condition]
  cases left.eval env with
  | error error => rfl
  | ok u =>
    cases right.eval env with
    | error error => rfl
    | ok v =>
      simp only [bind, Except.bind]
      rcases op.compare u v with error | _ | _ <;> rfl

section
variable {env left right}

theorem eval_choice_of_left_error {error : EvalError} (hl : left.eval env = .error error)
    (op : BinaryOp) : (choice op left right yes no).eval env = .error error := by
  rw [eval_choice, hl]
  rfl

theorem eval_choice_of_right_error {u : Value} {error : EvalError} (hl : left.eval env = .ok u)
    (hr : right.eval env = .error error) (op : BinaryOp) :
    (choice op left right yes no).eval env = .error error := by
  rw [eval_choice, hl, hr]
  rfl

theorem eval_choice_of_ok {u v : Value} (hl : left.eval env = .ok u) (hr : right.eval env = .ok v)
    (op : BinaryOp) : (choice op left right yes no).eval env =
      op.compare u v >>= fun b => if b then yes.eval env else no.eval env := by
  rw [eval_choice, hl, hr]
  rfl

end

/-- The opposite comparison selects the other branch, and fails where the comparison does. -/
theorem eval_choice_notEqual :
    (choice .notEqual left right yes no).eval env = (choice .equal left right no yes).eval env := by
  cases hl : left.eval env with
  | error error => simp only [eval_choice_of_left_error _ _ hl]
  | ok u =>
    cases hr : right.eval env with
    | error error => simp only [eval_choice_of_right_error _ _ hl hr]
    | ok v =>
      rw [eval_choice_of_ok _ _ hl hr, eval_choice_of_ok _ _ hl hr, BinaryOp.compare_notEqual]
      rcases BinaryOp.equal.compare u v with error | _ | _ <;> rfl

end Expr

/-- If both sides have values, equality selects a branch by their display texts and the other branch has
no part in the outcome, the sides can change places, and an operator that is no comparison for equality
is the failure. Otherwise the outcome is the failure of a side, the left one first. The opposite of
equality is equality with the branches exchanged, whatever happens. -/
theorem choices_decided (env : Environment) (left right yes no : Expr) :
    (∀ u v, left.eval env = .ok u → right.eval env = .ok v →
      (Expr.choice .equal left right yes no).eval env =
        (if u.display = v.display then yes.eval env else no.eval env) ∧
      (∀ op, (Expr.choice op right left yes no).eval env =
        (Expr.choice op left right yes no).eval env) ∧
      ∀ op, op ≠ .equal → op ≠ .notEqual →
        (Expr.choice op left right yes no).eval env = .error (.operator op)) ∧
    (Expr.choice .notEqual left right yes no).eval env =
      (Expr.choice .equal left right no yes).eval env ∧
    (∀ op error, left.eval env = .error error →
      (Expr.choice op left right yes no).eval env = .error error) ∧
    ∀ op u error, left.eval env = .ok u → right.eval env = .error error →
      (Expr.choice op left right yes no).eval env = .error error := by
  refine ⟨?_, Expr.eval_choice_notEqual env left right yes no, ?_, ?_⟩
  · intro u v hl hr
    refine ⟨?_, ?_, ?_⟩
    · rw [Expr.eval_choice_of_ok _ _ hl hr]
      by_cases h : u.display = v.display <;> simp [BinaryOp.compare, h, bind, Except.bind]
    · intro op
      rw [Expr.eval_choice_of_ok _ _ hl hr, Expr.eval_choice_of_ok _ _ hr hl, op.compare_comm]
    · intro op hequal hnotEqual
      rw [Expr.eval_choice_of_ok _ _ hl hr, BinaryOp.compare_of_ne hequal hnotEqual]
      rfl
  · intro op error hl
    exact Expr.eval_choice_of_left_error _ _ hl op
  · intro op u error hl hr
    exact Expr.eval_choice_of_right_error _ _ hl hr op

/-- A map is compared with its text, while the other branch and the opposite comparison fail. -/
theorem zone_map_chosen :
    let zones := Expr.object [(.identifier "a", .null), (.identifier "b", .number (.integer 1))]
    let text := Expr.string "\x7ba = $\x7bunsupported\x7d, b = 1\x7d"
    (Expr.choice .equal zones text (.bool true) .null).eval [] = .ok (.bool true) ∧
      (Expr.choice .notEqual text zones .null (.bool true)).eval [] = .ok (.bool true) ∧
      (Expr.choice .less zones text (.bool true) .null).eval [] = .error (.operator .less) ∧
      (Expr.choice .less .null .malformed (.bool true) .null).eval [] = .error .null ∧
      (Expr.choice .equal zones .malformed .null .null).eval [] = .error .malformedText := by
  intro zones text
  have hzones : zones.eval [] = .ok (.map [("a", unsupported), ("b", .int 1)]) := rfl
  have htext : text.eval [] = .ok (.string "\x7ba = $\x7bunsupported\x7d, b = 1\x7d") := rfl
  obtain ⟨hvalues, hopposite, _⟩ := choices_decided [] zones text (.bool true) .null
  obtain ⟨hequal, hcomm, hother⟩ := hvalues _ _ hzones htext
  have hsame : (Value.map [("a", unsupported), ("b", .int 1)]).display =
      "\x7ba = $\x7bunsupported\x7d, b = 1\x7d" := by decide
  have hchosen := hequal.trans (if_pos hsame)
  refine ⟨hchosen, ?_, hother .less (by decide) (by decide), ?_, ?_⟩
  · have hexchanged := (choices_decided [] text zones .null (.bool true)).2.1
    exact hexchanged.trans ((hcomm .equal).trans hchosen)
  · exact (choices_decided [] .null .malformed (.bool true) .null).2.2.1 .less .null rfl
  · exact (choices_decided [] zones .malformed .null .null).2.2.2 .equal _ .malformedText hzones rfl

end TemplateCost.Template
