import TemplateCost.Proofs.Loading.Assembly
import TemplateCost.Proofs.Substitution.Nesting
import TemplateCost.Proofs.Template.Failure

/-! # Which attributes are present

An attribute is missing from a resource only if its expression fails. Whatever is written under its
name later takes its place and does not remove it, and substitution keeps all names and places.
-/
namespace TemplateCost
open Template Entries Substitution

theorem Body.mem_keys_values {env : Environment} {body : Body} {name : String} {e : Expr} {v : Value}
    (h : (name, e) ∈ body.attributes) (he : e.eval env = .ok v) : name ∈ keys (body.values env) := by
  obtain ⟨attributes, blocks⟩ := body
  have hevaluated : (name, v) ∈ evaluated env attributes := mem_evaluated_iff.mpr ⟨e, h, he⟩
  have hget : get? name (evaluated env attributes).reverse ≠ none := by
    intro hnone
    exact get?_eq_none_iff.mp hnone (name, v) (List.mem_reverse.mpr hevaluated) rfl
  rw [mem_keys_iff, Body.get?_values, Option.isSome_or, Bool.or_eq_true]
  exact Or.inr (Option.isSome_iff_ne_none.mpr hget)

namespace Resource.IsFrom
variable {bodies : List Body} {env : Environment} {sources : Option DataSources} {block : Block}
  {r : Resource}

theorem mem_keys (h : IsFrom bodies env sources block r) {name : String} {e : Expr}
    (hmem : (name, e) ∈ block.body.attributes) (he : ¬ e.Fails env) : name ∈ r.attributes.keys := by
  obtain ⟨v, hv⟩ := Expr.eval_eq_ok_of_not_fails he
  rw [h.attributes_eq, replaceEntries_eq_mapValues, keys_mapValues]
  exact Body.mem_keys_values hmem hv

theorem at?_isSome (h : IsFrom bodies env sources block r) {spots : List Spot} {e : Expr}
    (hholds : Body.Holds env block.body spots e) (he : ¬ e.Fails env) :
    ∃ v, (Value.map r.attributes).at? spots = some v := by
  obtain ⟨v, hv⟩ := Expr.eval_eq_ok_of_not_fails he
  have hat := at?_replace (answered sources bodies env) (hholds.value_at hv)
  rw [replace, ← h.attributes_eq] at hat
  exact ⟨_, hat⟩

end Resource.IsFrom

/-- Evaluation gives an error exactly for the failing expressions, never for those that contain the
failures of their parts, and a placeholder for an unbound reference. So a loaded resource has every
attribute of its block that does not fail, also at the places of nested blocks. -/
theorem evaluation_fails_iff :
    (∀ (env : Environment) (e : Expr),
      ((∃ error, e.eval env = .error error) ↔ e.Fails env) ∧
      (e.IsContained → ∃ v, e.eval env = .ok v) ∧
      ∀ path, e.reference? = some path → env.get? (bareName path) = none →
        e.eval env = .ok (.placeholder (token path))) ∧
    ∀ (directory : Directory) (overrides : Entries String) (sources : Option DataSources)
      (loaded : Loaded), load directory overrides sources = .ok loaded →
      ∃ bodies, directory.bodies = .ok bodies ∧
        let env := directory.environment overrides bodies
        (∀ r, r ∈ loaded.inventory.resources ↔
          ∃ block, Resource.IsFrom bodies env sources block r) ∧
        ∀ block r, Resource.IsFrom bodies env sources block r →
          (∀ name e, (name, e) ∈ block.body.attributes → ¬ e.Fails env →
            name ∈ r.attributes.keys) ∧
          ∀ spots e, Body.Holds env block.body spots e → ¬ e.Fails env →
            ∃ v, (Value.map r.attributes).at? spots = some v := by
  refine ⟨?_, ?_⟩
  · intro env e
    refine ⟨Expr.eval_eq_error_iff e, ?_, ?_⟩
    · intro h
      exact Expr.eval_eq_ok_of_not_fails h.not_fails
    · intro path hpath hunbound
      exact Expr.eval_unbound hpath hunbound
  · intro directory overrides sources loaded h
    obtain ⟨bodies, hbodies, rfl⟩ := load_eq_ok_iff.mp h
    refine ⟨bodies, hbodies, fun r => mem_resources_iff, ?_⟩
    intro block r hfrom
    exact ⟨fun name e hmem he => hfrom.mem_keys hmem he,
      fun spots e hholds he => hfrom.at?_isSome hholds he⟩

/-- A failing branch counts only where it is selected, and a failing item of the other one never. -/
theorem conditional_fails_where_selected :
    let e := Expr.conditional (.parens (.binary .equal (.variable "zone") (.string "a"))) .null
      (.list [.null, .variable "zone"])
    (∃ error, e.eval [("zone", .string "a")] = .error error) ∧
      ¬ (∃ error, e.eval [("zone", .string "b")] = .error error) := by
  intro e
  constructor
  · have hyes : Expr.Decides [("zone", .string "a")]
        (.parens (.binary .equal (.variable "zone") (.string "a"))) true :=
      (Expr.condition_eq_ok_iff _ _).mp rfl
    exact ((evaluation_fails_iff.1 _ e).1).mpr (.yes hyes .null)
  · have hno : Expr.Decides [("zone", .string "b")]
        (.parens (.binary .equal (.variable "zone") (.string "a"))) false :=
      (Expr.condition_eq_ok_iff _ _).mp rfl
    rw [(evaluation_fails_iff.1 _ e).1, Expr.fails_conditional_iff hno]
    exact (Expr.IsContained.list _).not_fails

end TemplateCost
