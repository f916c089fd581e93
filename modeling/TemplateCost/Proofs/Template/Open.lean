import TemplateCost.Proofs.Substitution.Lookup
import TemplateCost.Proofs.Substitution.Nesting
import TemplateCost.Proofs.Template.Failure

/-! # Open expressions

An expression is open in an environment if part of what it stands for is not known from the template:
it is an unbound reference, a call or a text with such a fragment in it, or hands one on. It has a
value then, and the value shows that it is open, by its kind or by a mark in its text.
-/
namespace TemplateCost

/-- The mark with which an interpolation begins stands in the text. -/
def Text.IsMarked (text : String) : Prop := ['$', '{'] <:+: text.toList

instance (text : String) : Decidable (Text.IsMarked text) :=
  inferInstanceAs (Decidable (['$', '{'] <:+: text.toList))

theorem Text.isMarked_token (inner : String) : Text.IsMarked (token inner) := by
  rw [Text.IsMarked, toList_token]
  exact (List.prefix_append ['$', '{'] (inner.toList ++ ['}'])).isInfix

theorem Text.not_isMarked_empty : ¬ Text.IsMarked "" := by
  rw [Text.IsMarked, String.toList_empty, List.infix_nil]
  exact List.cons_ne_nil _ _

/-- A value that shows that its expression is open. -/
inductive Value.IsUnresolved : Value → Prop
  | placeholder (token : String) : IsUnresolved (.placeholder token)
  | marked {text : String} (h : Text.IsMarked text) : IsUnresolved (.string text)

theorem Value.plainText?_eq_none_of_isMarked {text : String} (h : Text.IsMarked text) :
    (Value.string text).plainText? = none := by
  have hmark : Text.contains ['$', '{'] text.toList = true := Text.contains_iff_isInfix.mpr h
  simp [plainText?, hmark]

theorem Value.IsUnresolved.plainText?_eq_none {v : Value} (h : v.IsUnresolved) :
    v.plainText? = none := by
  cases h with
  | placeholder token => rfl
  | marked h => exact plainText?_eq_none_of_isMarked h

namespace Template
variable {env : Environment}

/-- A fragment of a text that is not known from the template. -/
inductive Element.IsOpen (env : Environment) : Element → Prop
  | unbound {inner : Expr} {path : String} (hpath : inner.reference? = some path)
      (h : env.get? (bareName path) = none) : IsOpen env (.interpolation inner)
  | hidden {inner : Expr} (h : inner.reference? = none) : IsOpen env (.interpolation inner)
  | directive : IsOpen env .directive

inductive Expr.IsOpen (env : Environment) : Expr → Prop
  | unbound {e : Expr} {path : String} (hpath : e.reference? = some path)
      (h : env.get? (bareName path) = none) : IsOpen env e
  | call (name : String) (arguments : List Expr) : IsOpen env (.call name arguments)
  | quoted {elements : List Element} {element : Element} (hmem : element ∈ elements)
      (h : element.IsOpen env) : IsOpen env (.quoted elements)
  | parens {inner : Expr} (h : IsOpen env inner) : IsOpen env (.parens inner)
  | yes {c yes no : Expr} (hc : c.Decides env true) (h : IsOpen env yes) :
      IsOpen env (.conditional c yes no)
  | no {c yes no : Expr} (hc : c.Decides env false) (h : IsOpen env no) :
      IsOpen env (.conditional c yes no)

theorem Element.IsOpen.text_isMarked {element : Element} (h : element.IsOpen env) :
    Text.IsMarked (element.text env) := by
  cases h with
  | @unbound inner path hpath hunbound =>
    rw [text_interpolation, hpath, Option.map_some, Option.getD_some, Environment.resolve, hunbound]
    exact Text.isMarked_token path
  | hidden hnone =>
    rw [text_interpolation, hnone]
    exact Text.isMarked_token "..."
  | directive => exact Text.isMarked_token "..."

/-- A mark in one fragment is a mark in the whole text. -/
theorem Element.isMarked_render {elements : List Element} {element : Element}
    (hmem : element ∈ elements) (h : Text.IsMarked (element.text env)) :
    Text.IsMarked (render env elements) := by
  obtain ⟨before, after, rfl⟩ := List.append_of_mem hmem
  rw [Text.IsMarked, render, List.map_append, List.map_cons, String.toList_join, List.flatMap_append,
    List.flatMap_cons]
  exact h.trans (List.infix_append' _ _ _)

theorem Expr.IsOpen.eval {e : Expr} (h : e.IsOpen env) :
    ∃ v, e.eval env = .ok v ∧ v.IsUnresolved := by
  induction h with
  | unbound hpath hunbound => exact ⟨_, eval_unbound hpath hunbound, .placeholder _⟩
  | call name arguments =>
    refine ⟨.unresolved ("function:" ++ name), ?_, .placeholder _⟩
    rw [Expr.eval]
  | quoted hmem h =>
    have hmarked := Element.isMarked_render hmem h.text_isMarked
    exact ⟨_, eval_quoted env _, .marked hmarked⟩
  | parens _ ih =>
    rw [Expr.eval]
    exact ih
  | yes hc _ ih =>
    rw [eval_conditional hc]
    exact ih
  | no hc _ ih =>
    rw [eval_conditional hc]
    exact ih

/-! ## Attributes of bodies -/

/-- What stands under a name is a nested block or the value of an attribute with this name. -/
theorem Body.get?_values_cases {body : Body} {name : String} {v : Value}
    (h : (body.values env).get? name = some v) :
    (∃ inner, v = .map inner) ∨ ∃ e, (name, e) ∈ body.attributes ∧ e.eval env = .ok v := by
  obtain ⟨attributes, blocks⟩ := body
  rw [Body.get?_values, Option.or_eq_some_iff] at h
  rcases h with hblock | ⟨_, hattribute⟩
  · have hmem := List.mem_reverse.mp (Entries.mem_of_get? hblock)
    exact Or.inl (Block.of_mem_entries hmem).2
  · have hmem := List.mem_reverse.mp (Entries.mem_of_get? hattribute)
    exact Or.inr (mem_evaluated_iff.mp hmem)

/-- Where all attributes with a name are open, only a nested block can give it a value that does not
show it. -/
theorem Body.get?_values_of_isOpen {body : Body} {name : String} {v : Value}
    (hopen : ∀ e, (name, e) ∈ body.attributes → e.IsOpen env)
    (h : (body.values env).get? name = some v) : (∃ inner, v = .map inner) ∨ v.IsUnresolved := by
  rcases Body.get?_values_cases h with hmap | ⟨e, hmem, he⟩
  · exact Or.inl hmap
  · obtain ⟨u, hu, hunresolved⟩ := (hopen e hmem).eval
    obtain rfl : u = v := Except.ok.inj (hu.symm.trans he)
    exact Or.inr hunresolved

theorem Body.isMarked_of_isOpen {body : Body} {name text : String}
    (hopen : ∀ e, (name, e) ∈ body.attributes → e.IsOpen env)
    (h : ((body.values env).get? name).bind Value.string? = some text) : Text.IsMarked text := by
  obtain ⟨v, hget, hstring⟩ := Option.bind_eq_some_iff.mp h
  rcases Body.get?_values_of_isOpen hopen hget with ⟨inner, rfl⟩ | hunresolved
  · cases hstring
  · cases hunresolved with
    | placeholder token => cases hstring
    | marked hmarked =>
      cases hstring
      exact hmarked

end Template
end TemplateCost
