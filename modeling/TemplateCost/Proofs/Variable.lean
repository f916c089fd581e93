import Mathlib.Data.Finset.Card
import Mathlib.Data.List.Dedup
import TemplateCost.Proofs.Entries
import TemplateCost.Resource.Attributes
import TemplateCost.Variable

/-! # Layers of the environment

An override binds its name before an assigned value does, and that before a default. What a name is
declared as is said by the last block with its label alone, so nothing of an earlier one is left.
-/
namespace TemplateCost
open Template Entries

/-- The type that a `variable` block declares. -/
def Template.Block.declaredType (block : Block) : VarType :=
  (block.body.attribute? "type").elim .other VarType.ofExpr

/-- The default of a `variable` block, if it has one that evaluates. -/
def Template.Block.default? (block : Block) : Option Value :=
  (block.body.attribute? "default").bind (Expr.value? [])

namespace Variable

/-- The last `variable` block that has the name for its label. -/
def declaration? (bodies : List Body) (name : String) : Option Block :=
  ((bodies.flatMap (Body.blocksOf "variable")).filter fun block =>
    block.labels.head? = some name).getLast?

/-- The names that have a default. -/
def defaulted (bodies : List Body) : Finset String :=
  ((bodies.flatMap (Body.blocksOf "variable")).filterMap fun block =>
    block.labels.head?).toFinset.filter fun name =>
      ((declaration? bodies name).bind Block.default?).isSome

/-! ## Declarations -/

theorem ofBody_default (name : String) (block : Block) :
    (ofBody name block.body).default = block.default? := by
  rw [ofBody, Block.default?]
  cases block.body.attribute? "default" with
  | none => rfl
  | some e =>
    rw [Option.map_some, Option.bind_some, Expr.value?]
    cases e.eval [] <;> rfl

theorem get?_filterMap_ofBlock? (blocks : List Block) (name : String) :
    get? name (blocks.filterMap ofBlock?) =
      (blocks.find? fun block => block.labels.head? = some name).map fun block =>
        ofBody name block.body := by
  induction blocks with
  | nil => rfl
  | cons block rest ih =>
    cases hlabel : block.labels.head? with
    | none =>
      have hskip : ofBlock? block = none := by rw [ofBlock?, hlabel, Option.map_none]
      rw [List.filterMap_cons_none hskip, ih, List.find?_cons_of_neg (by simp [hlabel])]
    | some label =>
      have hkeep : ofBlock? block = some (label, ofBody label block.body) := by
        rw [ofBlock?, hlabel, Option.map_some]
      rw [List.filterMap_cons_some hkeep, get?_cons]
      by_cases h : label = name
      · rw [if_pos h, List.find?_cons_of_pos (by simp [hlabel, h]), Option.map_some, h]
      · rw [if_neg h, ih, List.find?_cons_of_neg (by simp [hlabel, h])]

/-- The last block with a label decides as a whole what is declared. -/
theorem get?_declared (bodies : List Body) (name : String) :
    (declared bodies).get? name =
      (declaration? bodies name).map fun block => ofBody name block.body := by
  rw [declared, get?_ofList, ← List.filterMap_reverse, get?_filterMap_ofBlock?, declaration?,
    List.getLast?_eq_head?_reverse, ← List.filter_reverse, List.head?_filter]

theorem sorted_declared (bodies : List Body) : (declared bodies).Sorted := sorted_ofList _

theorem mem_defaulted_iff {bodies : List Body} {name : String} :
    name ∈ defaulted bodies ↔ ((declaration? bodies name).bind Block.default?).isSome := by
  rw [defaulted, Finset.mem_filter, List.mem_toFinset, List.mem_filterMap, and_iff_right_iff_imp]
  intro h
  cases hdeclared : declaration? bodies name with
  | none => simp [hdeclared] at h
  | some block =>
    have hmem := List.mem_of_getLast? hdeclared
    simp only [List.mem_filter, decide_eq_true_eq] at hmem
    exact ⟨block, hmem⟩

/-! ## Layers -/

section
variable (declarations : Entries Variable) (assigned : Option (Entries Value))

/-- An override is bound by its name before anything else; other names are bound as without any. -/
theorem get?_environment {overrides : Entries String} (h : overrides.Sorted) (name : String) :
    (environment declarations assigned overrides).get? name =
      ((overrides.get? name).map (overrideValue declarations name)).or
        ((environment declarations assigned []).get? name) := by
  simp only [environment]
  rw [get?_overlay, ← List.map_reverse, get?_map_keyed, h.get?_reverse]
  rfl

theorem sorted_environment (overrides : Entries String) :
    (environment declarations assigned overrides).Sorted :=
  sorted_overlay (sorted_overlay (sorted_ofList _) _) _

end

/-- Without overrides, an assigned value is bound before a default. -/
theorem get?_environment_nil {declarations : Entries Variable} {assigned : Option (Entries Value)}
    (hdeclarations : declarations.Sorted) (hassigned : ∀ values ∈ assigned, values.Sorted)
    (name : String) :
    (environment declarations assigned []).get? name =
      (assigned.bind fun values => values.get? name).or
        ((declarations.get? name).bind Variable.default) := by
  have hdefaults := hdeclarations.filterMap_values Variable.default
  have hlast : get? name (assigned.getD []).reverse = assigned.bind fun values => values.get? name := by
    cases assigned with
    | none => rfl
    | some values => exact (hassigned values rfl).get?_reverse name
  simp only [environment]
  rw [List.map_nil, overlay, List.foldl_nil, get?_overlay, get?_ofList, hlast, hdefaults.get?_reverse,
    hdeclarations.get?_filterMap_values]

theorem overrideValue_declared (bodies : List Body) (name raw : String) :
    overrideValue (declared bodies) name raw =
      ((declaration? bodies name).bind fun block =>
        (block.declaredType.coerce raw).toOption).getD (.string raw) := by
  rw [overrideValue, get?_declared]
  cases declaration? bodies name <;> rfl

/-- The environment of bodies, layer by layer. -/
theorem get?_environment_declared (bodies : List Body) {assigned : Option (Entries Value)}
    {overrides : Entries String} (hassigned : ∀ values ∈ assigned, values.Sorted)
    (hoverrides : overrides.Sorted) (name : String) :
    (environment (declared bodies) assigned overrides).get? name =
      match overrides.get? name with
      | some raw => some (((declaration? bodies name).bind fun block =>
          (block.declaredType.coerce raw).toOption).getD (.string raw))
      | none => (assigned.bind fun values => values.get? name).or
          ((declaration? bodies name).bind Block.default?) := by
  rw [get?_environment _ _ hoverrides]
  cases overrides.get? name with
  | some raw => rw [Option.map_some, Option.some_or, overrideValue_declared]
  | none =>
    rw [Option.map_none, Option.none_or, get?_environment_nil (sorted_declared bodies) hassigned,
      get?_declared, Option.bind_map]
    congr 2
    funext block
    exact ofBody_default name block

theorem keys_environment_declared (bodies : List Body) {assigned : Option (Entries Value)}
    {overrides : Entries String} (hassigned : ∀ values ∈ assigned, values.Sorted)
    (hoverrides : overrides.Sorted) :
    (environment (declared bodies) assigned overrides).keys.toFinset =
      overrides.keys.toFinset ∪ (assigned.getD []).keys.toFinset ∪ defaulted bodies := by
  ext name
  rw [Finset.mem_union, Finset.mem_union, List.mem_toFinset, List.mem_toFinset, List.mem_toFinset,
    mem_keys_iff, mem_keys_iff, mem_keys_iff, mem_defaulted_iff,
    get?_environment_declared bodies hassigned hoverrides]
  cases overrides.get? name with
  | some raw => simp
  | none => cases assigned <;> simp [Option.isSome_or, get?_nil]

/-- Of the layers that bind a name, the override wins, then the assigned value, then the default. The
last block with the name for its label is its whole declaration. So many names are bound as the three
layers have together. -/
theorem environment_layered (bodies : List Body) (assigned : Option (Entries Value))
    (overrides : Entries String) (hassigned : ∀ values ∈ assigned, values.Sorted)
    (hoverrides : overrides.Sorted) :
    let env := environment (declared bodies) assigned overrides
    (∀ name, (declared bodies).get? name =
      (declaration? bodies name).map fun block => ofBody name block.body) ∧
    (∀ name, env.get? name =
      match overrides.get? name with
      | some raw => some (((declaration? bodies name).bind fun block =>
          (block.declaredType.coerce raw).toOption).getD (.string raw))
      | none => (assigned.bind fun values => values.get? name).or
          ((declaration? bodies name).bind Block.default?)) ∧
    env.length =
      (overrides.keys.toFinset ∪ (assigned.getD []).keys.toFinset ∪ defaulted bodies).card := by
  intro env
  refine ⟨get?_declared bodies, get?_environment_declared bodies hassigned hoverrides, ?_⟩
  have hnodup := (sorted_environment (declared bodies) assigned overrides).nodup_keys
  rw [← keys_environment_declared bodies hassigned hoverrides, List.toFinset_card_of_nodup hnodup,
    keys, List.length_map]

/-- A zone that is declared twice, the second time with nothing that evaluates, and a number of nodes. -/
def zoneBodies : List Body :=
  [.mk [] [.mk "variable" ["zone"] (.mk [("type", .variable "number"), ("default", .string "a")] []),
      .mk "variable" ["nodes"] (.mk [("type", .string " number ")] [])],
    .mk [] [.mk "variable" ["zone"] (.mk [("default", .null)] [])]]

theorem zone_declared_last :
    let env := fun overrides => environment (declared zoneBodies) (some [("tier", .bool true)]) overrides
    (env [("nodes", "7"), ("zone", "7")]).get? "nodes" = some (.int 7) ∧
      (env [("nodes", "7"), ("zone", "7")]).get? "zone" = some (.string "7") ∧
      (env []).get? "zone" = none ∧ (env []).get? "tier" = some (.bool true) ∧
      (env []).length = 1 := by
  intro env
  have hassigned : ∀ values ∈ some [("tier", Value.bool true)], Sorted values := by
    rintro _ ⟨⟩
    exact List.pairwise_singleton ..
  have hboth := environment_layered zoneBodies (some [("tier", .bool true)])
    [("nodes", "7"), ("zone", "7")] hassigned (by decide)
  have hnone := environment_layered zoneBodies (some [("tier", .bool true)]) [] hassigned (by decide)
  refine ⟨(hboth.2.1 "nodes").trans ?_, (hboth.2.1 "zone").trans ?_, (hnone.2.1 "zone").trans ?_,
    (hnone.2.1 "tier").trans ?_, hnone.2.2.trans ?_⟩
  · rfl
  · rfl
  · rfl
  · rfl
  · decide +kernel

end Variable
end TemplateCost
