import TemplateCost.Proofs.Loading.Extraction

/-! # Keys that are lost

An item of an object stays with its key, whatever its value is. It is lost if the key has none of the
forms that are written out, as a text with an interpolation, a call or an operation has not. An object
that loses all of its items counts as no instance, so its block does not become a resource.
-/
namespace TemplateCost
open Template

namespace Template

theorem ncard_renderedKeys_pos_iff {items : List (Key × Expr)} :
    0 < (renderedKeys items).ncard ↔ ∃ item ∈ items, item.1.IsRendered := by
  have hfinite : (renderedKeys items).Finite := by
    rw [renderedKeys_eq]
    exact Finset.finite_toSet _
  rw [Set.ncard_pos hfinite]
  constructor
  · rintro ⟨text, item, hitem, htext⟩
    exact ⟨item, hitem, text, htext⟩
  · rintro ⟨item, hitem, text, htext⟩
    exact ⟨text, item, hitem, htext⟩

/-- Items whose keys are not written out leave no trace. -/
theorem Expr.eval_object_filter (env : Environment) (items : List (Key × Expr)) :
    (Expr.object (items.filter fun item => item.1.IsRendered)).eval env =
      (Expr.object items).eval env := by
  have hitems : Expr.evalItems env (items.filter fun item => item.1.IsRendered) =
      Expr.evalItems env items := by
    rw [evalItems_eq_filterMap, evalItems_eq_filterMap, List.filterMap_filter]
    apply List.filterMap_congr
    intro item _
    by_cases h : item.1.IsRendered
    · simp [h]
    · have hnone : item.1.text? = none := by
        rw [← Option.not_isSome_iff_eq_none, Key.isSome_text?_iff]
        exact h
      simp [h, hnone]
  rw [eval_object, eval_object, hitems]

theorem Block.standsFor_object {env : Environment} {block : Block} {items : List (Key × Expr)}
    (h : block.body.attribute? "for_each" = some (.object items)) {n : Int64} :
    block.StandsFor env n ↔ n = Int64.ofInt (renderedKeys items).ncard := by
  rw [← instances?_eq_some_iff, instances?_of_forEach h (Expr.eval_object env items),
    Multiplicity.ofForEach, (isMapOf_evalItems env items).length_eq, Option.some.injEq, eq_comm]

theorem Block.isMaterialized_object_iff {env : Environment} {block : Block}
    {items : List (Key × Expr)} (hlabels : 2 ≤ block.labels.length)
    (h : block.body.attribute? "for_each" = some (.object items)) (hlength : items.length < 2 ^ 63) :
    block.IsMaterialized env ↔ ∃ item ∈ items, item.1.IsRendered := by
  have hexact := (Decimal.toInt64?_ofNat ((ncard_renderedKeys_le items).trans_lt hlength)).2
  simp only [IsMaterialized, hlabels, true_and, standsFor_object h, exists_eq_left]
  rw [← ncard_renderedKeys_pos_iff, Int64.lt_iff_toInt_lt, hexact]
  simp

end Template

/-- An item whose key is written out has its key in the map, and the items with other keys leave the
object as it would be without them. A block with a type, a name and an object for its `for_each` becomes
a resource iff one of the items has such a key; no object holds 2^63 items. -/
theorem rendered_items_kept (env : Environment) (items : List (Key × Expr)) :
    (∃ entries, (Expr.object items).eval env = .ok (.map entries) ∧
      ∀ item ∈ items, ∀ text, item.1.Renders text → text ∈ Entries.keys entries) ∧
    (Expr.object (items.filter fun item => item.1.IsRendered)).eval env =
      (Expr.object items).eval env ∧
    ∀ (regions : Entries String) (body : Body), ∀ block ∈ body.blocksOf "resource",
      2 ≤ block.labels.length → block.body.attribute? "for_each" = some (.object items) →
      items.length < 2 ^ 63 →
      ((∃ r ∈ Resource.ofBody env regions body, r.IsOf env regions block) ↔
        ∃ item ∈ items, item.1.IsRendered) := by
  refine ⟨⟨_, Expr.eval_object env items, ?_⟩, Expr.eval_object_filter env items, ?_⟩
  · intro item hitem text htext
    exact ((isMapOf_evalItems env items).keys text).mpr ⟨item, hitem, htext⟩
  · intro regions body block hblock hlabels hforEach hlength
    rw [Resource.exists_isOf_iff hblock]
    exact Block.isMaterialized_object_iff hlabels hforEach hlength

/-- A gateway for each item of an object. -/
def gatewaysBody (items : List (Key × Expr)) : Body :=
  .mk [] [.mk "resource" ["aws_nat_gateway", "egress"] (.mk [("for_each", .object items)] [])]

/-- A name with an interpolation and a plain one. -/
def gatewayItems : List (Key × Expr) :=
  [(.expression (.quoted [.interpolation (.variable "stage"), .literal "-a"]), .bool true),
    (.identifier "b", .null)]

theorem plain_gateway_kept :
    ∃ r ∈ Resource.ofBody [] [] (gatewaysBody gatewayItems), r.count = 1 ∧
      r.attributes.get? "for_each" = some (.map [("b", .placeholder "$\x7bunsupported\x7d")]) := by
  have hkept := (rendered_items_kept [] gatewayItems).2.2 [] (gatewaysBody gatewayItems) _
    List.mem_cons_self (by decide) rfl (by decide)
  have hrendered : ∃ item ∈ gatewayItems, item.1.IsRendered :=
    ⟨_, List.mem_cons_of_mem _ List.mem_cons_self, "b", .identifier "b"⟩
  obtain ⟨r, hr, hof⟩ := hkept.mpr hrendered
  have hkeys : (renderedKeys gatewayItems).ncard = 1 := by
    rw [renderedKeys_eq, Set.ncard_coe_finset]
    decide
  refine ⟨r, hr, ?_, ?_⟩
  · rw [(Block.standsFor_object rfl).mp hof.count, hkeys]
    rfl
  · rw [hof.attributes]
    rfl

/-- A gateway for the only item of an object, whose key has an interpolation. -/
def stagedDirectory : Directory :=
  .ofLines [
    "resource \"aws_nat_gateway\" \"egress\" \x7b",
    "  for_each = \x7b",
    "    \"$\x7bvar.stage\x7d-a\" = true",
    "  \x7d",
    "\x7d"]

/-- The only item of the object that a block has for its `for_each`. -/
def Template.Block.onlyItem? (block : Block) : Option (Key × Expr) :=
  match block.body.attribute? "for_each" with
  | some (.object [item]) => some item
  | _ => none

/-- An object in a template can have an item and stand for the empty map, and then its block is left
out. -/
theorem staged_gateway_lost :
    ∃ bodies, stagedDirectory.bodies = .ok bodies ∧
      (∃ block ∈ bodies.flatMap (Body.blocksOf "resource"), block.labels.length = 2 ∧
        ∃ item, block.body.attribute? "for_each" = some (.object [item]) ∧
          (Expr.object [item]).eval (stagedDirectory.environment [] bodies) = .ok (.map [])) ∧
      ∃ loaded, load stagedDirectory [] none = .ok loaded ∧ loaded.inventory.resources = [] := by
  have hparsed : stagedDirectory.bodies.toOption.any (fun bodies =>
      (bodies.flatMap (Body.blocksOf "resource")).any fun block => block.labels.length = 2 &&
        block.onlyItem?.any fun item => !item.1.IsRendered) = true := by
    decide +kernel
  have hseen : (load stagedDirectory [] none).toOption.map
      (fun loaded => loaded.inventory.resources.length) = some 0 := by
    decide +kernel
  obtain ⟨bodies, hbodies, hblocks⟩ := Directory.exists_bodies hparsed
  obtain ⟨loaded, hload, hnone⟩ := exists_loaded hseen
  refine ⟨bodies, hbodies, ?_, loaded, hload, List.length_eq_zero_iff.mp hnone⟩
  obtain ⟨block, hblock, hview⟩ := List.any_eq_true.mp hblocks
  obtain ⟨hlabels, hitem⟩ := Bool.and_eq_true_iff.mp hview
  obtain ⟨item, honly, hkey⟩ := (Option.any_eq_true _ _).mp hitem
  refine ⟨block, hblock, of_decide_eq_true hlabels, item, ?_, ?_⟩
  · unfold Block.onlyItem? at honly
    split at honly
    · rename_i hforEach
      cases honly
      exact hforEach
    · cases honly
  · have hfilter : [item].filter (fun item => item.1.IsRendered) = [] := by
      simpa using hkey
    rw [← Expr.eval_object_filter, hfilter]
    rfl

end TemplateCost
