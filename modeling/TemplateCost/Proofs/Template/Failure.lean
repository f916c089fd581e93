import TemplateCost.Proofs.Template.References

/-! # Which expressions fail

Lists, objects, quoted texts and calls contain the failures of their parts, and references are never
asked to be bound. What is left fails by its form, or hands on the failure of what it stands for: the
inner expression of parentheses and the branch that a condition selects. A condition selects a branch
only if it is a literal or an equality of two values.
-/
namespace TemplateCost.Template

namespace Expr
variable {env : Environment}

/-- The condition has this outcome. -/
inductive Decides (env : Environment) : Expr → Bool → Prop
  | literal (b : Bool) : Decides env (.bool b) b
  | equal {left right : Expr} {u v : Value} (hl : left.eval env = .ok u)
      (hr : right.eval env = .ok v) :
      Decides env (.binary .equal left right) (u.display = v.display)
  | notEqual {left right : Expr} {u v : Value} (hl : left.eval env = .ok u)
      (hr : right.eval env = .ok v) :
      Decides env (.binary .notEqual left right) (u.display ≠ v.display)
  | parens {inner : Expr} {b : Bool} (h : Decides env inner b) : Decides env (.parens inner) b

/-- The expression has no value. -/
inductive Fails (env : Environment) : Expr → Prop
  | null : Fails env .null
  | unary (op : UnaryOp) (operand : Expr) : Fails env (.unary op operand)
  | binary (op : BinaryOp) (left right : Expr) : Fails env (.binary op left right)
  | forEach (names : List String) (collection : Expr) (parts : List Expr) :
      Fails env (.forEach names collection parts)
  | traversal {root : Expr} {steps : List Step} (h : ∀ name, root ≠ .variable name) :
      Fails env (.traversal root steps)
  | malformed : Fails env .malformed
  | parens {inner : Expr} (h : Fails env inner) : Fails env (.parens inner)
  | undecided {c yes no : Expr} (h : ∀ b, ¬ Decides env c b) : Fails env (.conditional c yes no)
  | yes {c yes no : Expr} (hc : Decides env c true) (h : Fails env yes) :
      Fails env (.conditional c yes no)
  | no {c yes no : Expr} (hc : Decides env c false) (h : Fails env no) :
      Fails env (.conditional c yes no)

/-- The forms that have a value in every environment, whatever is nested inside. -/
inductive IsContained : Expr → Prop
  | reference {e : Expr} {path : String} (h : e.reference? = some path) : IsContained e
  | call (name : String) (arguments : List Expr) : IsContained (.call name arguments)
  | quoted (elements : List Element) : IsContained (.quoted elements)
  | object (items : List (Key × Expr)) : IsContained (.object items)
  | list (items : List Expr) : IsContained (.list items)

/-! ## Conditions -/

theorem condition_binary_eq_ok_iff {op : BinaryOp} {left right : Expr} {b : Bool} :
    (Expr.binary op left right).condition env = .ok b ↔
      ∃ u v, left.eval env = .ok u ∧ right.eval env = .ok v ∧ op.compare u v = .ok b := by
  rw [condition]
  cases hl : left.eval env with
  | error error => simp
  | ok u =>
    cases hr : right.eval env with
    | error error => simp
    | ok v => simp

theorem compare_eq_ok_iff {op : BinaryOp} {u v : Value} {b : Bool} :
    op.compare u v = .ok b ↔
      (op = .equal ∧ decide (u.display = v.display) = b) ∨
        (op = .notEqual ∧ decide (u.display ≠ v.display) = b) := by
  cases op <;> simp [BinaryOp.compare]

theorem decides_binary_iff {op : BinaryOp} {left right : Expr} {b : Bool} :
    Decides env (.binary op left right) b ↔
      ∃ u v, left.eval env = .ok u ∧ right.eval env = .ok v ∧ op.compare u v = .ok b := by
  constructor
  · intro h
    cases h with
    | equal hl hr => exact ⟨_, _, hl, hr, rfl⟩
    | notEqual hl hr => exact ⟨_, _, hl, hr, rfl⟩
  · rintro ⟨u, v, hl, hr, h⟩
    rcases compare_eq_ok_iff.mp h with ⟨rfl, rfl⟩ | ⟨rfl, rfl⟩
    · exact .equal hl hr
    · exact .notEqual hl hr

theorem decides_parens_iff {inner : Expr} {b : Bool} :
    Decides env (.parens inner) b ↔ Decides env inner b := by
  constructor
  · rintro (_ | _ | _ | h)
    exact h
  · exact .parens

theorem condition_eq_ok_iff : (c : Expr) → (b : Bool) →
    (c.condition env = .ok b ↔ Decides env c b)
  | .binary op left right, b => condition_binary_eq_ok_iff.trans decides_binary_iff.symm
  | .parens inner, b => by
    rw [condition, decides_parens_iff]
    exact condition_eq_ok_iff inner b
  | .bool other, b => by
    rw [condition, Except.ok.injEq]
    constructor
    · rintro rfl
      exact .literal other
    · intro h
      cases h
      rfl
  | .null, _ | .number _, _ | .string _, _ | .quoted _, _ | .malformed, _ | .variable _, _
  | .traversal _ _, _ | .call _ _, _ | .list _, _ | .object _, _ | .conditional _ _ _, _
  | .unary _ _, _ | .forEach _ _ _, _ => by
    constructor
    · intro h
      simp [condition] at h
    · intro h
      cases h

/-- A conditional has the outcome of the branch that its condition selects. -/
theorem eval_conditional {c : Expr} {b : Bool} (h : Decides env c b) (yes no : Expr) :
    (Expr.conditional c yes no).eval env = if b then yes.eval env else no.eval env := by
  rw [eval, (condition_eq_ok_iff c b).mpr h]
  cases b <;> rfl

/-! ## Expressions -/

theorem path?_eq_none_iff {root : Expr} {steps : List Step} :
    path? root steps = none ↔ ∀ name, root ≠ .variable name := by
  cases root <;> simp [path?]

theorem fails_conditional_iff {c : Expr} {b : Bool} (hc : Decides env c b) (yes no : Expr) :
    Fails env (.conditional c yes no) ↔ Fails env (if b then yes else no) := by
  have hok := (condition_eq_ok_iff c b).mpr hc
  constructor
  · intro h
    cases h with
    | undecided h => exact absurd hc (h b)
    | yes hyes h =>
      have hb := hok.symm.trans ((condition_eq_ok_iff c true).mpr hyes)
      cases hb
      exact h
    | no hno h =>
      have hb := hok.symm.trans ((condition_eq_ok_iff c false).mpr hno)
      cases hb
      exact h
  · intro h
    cases b with
    | true => exact .yes hc h
    | false => exact .no hc h

theorem fails_of_undecided {c yes no : Expr} {error : EvalError}
    (h : c.condition env = .error error) : Fails env (.conditional c yes no) := by
  refine .undecided ?_
  intro b hb
  rw [(condition_eq_ok_iff c b).mpr hb] at h
  cases h

/-- An expression is in the failing class iff evaluating it gives an error. -/
theorem eval_eq_error_iff : (e : Expr) → ((∃ error, e.eval env = .error error) ↔ Fails env e)
  | .conditional c yes no => by
    cases hc : c.condition env with
    | error error =>
      refine iff_of_true ⟨error, ?_⟩ (fails_of_undecided hc)
      rw [eval, hc]
    | ok b =>
      have hdecides := (condition_eq_ok_iff c b).mp hc
      rw [eval_conditional hdecides, fails_conditional_iff hdecides]
      cases b with
      | true => exact eval_eq_error_iff yes
      | false => exact eval_eq_error_iff no
  | .parens inner => by
    rw [eval, eval_eq_error_iff inner]
    constructor
    · exact .parens
    · intro h
      cases h
      assumption
  | .traversal root steps => by
    rw [eval]
    cases hpath : path? root steps with
    | none => exact iff_of_true ⟨_, rfl⟩ (.traversal (path?_eq_none_iff.mp hpath))
    | some path =>
      refine iff_of_false (by simp) ?_
      -- an unbound name has a placeholder, so only the root can make a traversal fail
      intro h
      cases h with
      | traversal h =>
        rw [path?_eq_none_iff.mpr h] at hpath
        cases hpath
  | .null => iff_of_true ⟨_, rfl⟩ .null
  | .malformed => iff_of_true ⟨_, rfl⟩ .malformed
  | .unary op operand => iff_of_true ⟨_, rfl⟩ (.unary op operand)
  | .binary op left right => iff_of_true ⟨_, rfl⟩ (.binary op left right)
  | .forEach names collection parts => iff_of_true ⟨_, rfl⟩ (.forEach names collection parts)
  | .bool _ | .number _ | .string _ | .quoted _ | .variable _ | .call _ _ | .list _
  | .object _ => by
    refine iff_of_false ?_ ?_
    · rintro ⟨error, h⟩
      simp [eval] at h
    · intro h
      cases h

theorem eval_eq_ok_of_not_fails {e : Expr} (h : ¬ Fails env e) : ∃ v, e.eval env = .ok v := by
  cases he : e.eval env with
  | ok v => exact ⟨v, rfl⟩
  | error error => exact absurd ((eval_eq_error_iff e).mp ⟨error, he⟩) h

theorem eval_reference {e : Expr} {path : String} (h : e.reference? = some path) :
    e.eval env = .ok (env.resolve path) := by
  match e with
  | .variable name =>
    cases h
    rw [eval]
  | .traversal root steps =>
    have hpath : path? root steps = some path := h
    rw [eval, hpath]

theorem IsContained.not_fails {e : Expr} (h : e.IsContained) : ¬ Fails env e := by
  cases h with
  | reference h =>
    rw [← eval_eq_error_iff, eval_reference h]
    simp
  | _ =>
    intro hfails
    cases hfails

theorem eval_unbound {e : Expr} {path : String} (h : e.reference? = some path)
    (hunbound : env.get? (bareName path) = none) :
    e.eval env = .ok (.placeholder (token path)) := by
  rw [eval_reference h, Environment.resolve, hunbound, Value.unresolved]

end Expr

end TemplateCost.Template
