import Mathlib.Logic.Relation
import TemplateCost.Proofs.Loading.Extraction
import TemplateCost.Proofs.Template.Attributes

/-! # Failing attributes leave no trace

An attribute that fails can be dropped, at whatever depth it stands, and so can a nested block in which
nothing has a value: the values of the body around them stay the same. Of a resource only `count` and
`for_each` are looked at for more than their value, since a failure of theirs leaves its multiplicity
unknown. All other failures can be dropped from its block, and it stays as it is.
-/
namespace TemplateCost
open Template Entries Relation

/-- One attribute that fails or one block without entries is dropped, at any depth. Outside nested blocks
the attributes with a kept name stay. -/
inductive Template.Body.Drops (env : Environment) : List String → Body → Body → Prop
  | own {kept : List String} {before after : List (String × Expr)} {name : String} {e : Expr}
      {blocks : List Block} (hname : name ∉ kept) (hfails : e.Fails env) :
      Drops env kept (.mk (before ++ (name, e) :: after) blocks) (.mk (before ++ after) blocks)
  | nested {kept : List String} {attributes : List (String × Expr)} {before after : List Block}
      {block : Block} (hentries : ¬ block.HasEntries env) :
      Drops env kept (.mk attributes (before ++ block :: after)) (.mk attributes (before ++ after))
  | inside {kept : List String} {attributes : List (String × Expr)} {before after : List Block}
      {kind : String} {labels : List String} {inner other : Body} (h : Drops env [] inner other) :
      Drops env kept (.mk attributes (before ++ .mk kind labels inner :: after))
        (.mk attributes (before ++ .mk kind labels other :: after))

namespace Template.Body
variable {env : Environment} {kept : List String} {body other : Body}

/-- The induction is on the depth of what is dropped; an inner body that keeps its values gives the same
entry to the body around it. -/
theorem Drops.values_eq (h : Drops env kept body other) : other.values env = body.values env := by
  induction h with
  | own _ hfails => simp [values, evaluated, Expr.value?_eq_none_iff.mpr hfails]
  | nested hentries => exact (values_without hentries _ _ _).symm
  | inside _ ih => simp [values, Block.entries_append, Block.entries, ih]

theorem Drops.attribute?_eq (h : Drops env kept body other) {name : String} (hname : name ∈ kept) :
    other.attribute? name = body.attribute? name := by
  cases h with
  | @own _ _ _ dropped _ _ hdropped _ =>
    have hne : dropped ≠ name := fun heq => hdropped (heq ▸ hname)
    simp [attribute?, attributes, List.find?_append, hne]
  | nested _ | inside _ => rfl

theorem values_of_drops (h : ReflTransGen (Drops env kept) body other) :
    other.values env = body.values env := by
  induction h with
  | refl => rfl
  | tail _ hstep ih => exact hstep.values_eq.trans ih

theorem attribute?_of_drops (h : ReflTransGen (Drops env kept) body other) {name : String}
    (hname : name ∈ kept) : other.attribute? name = body.attribute? name := by
  induction h with
  | refl => rfl
  | tail _ hstep ih => exact (hstep.attribute?_eq hname).trans ih

/-- A map without entries under a name does not come from a nested block. -/
theorem exists_attribute_of_get?_empty {name : String}
    (h : (body.values env).get? name = some (.map [])) :
    ∃ e, (name, e) ∈ body.attributes ∧ e.eval env = .ok (.map []) := by
  generalize hv : Value.map [] = v at h
  cases get?_values_eq_some_iff.mp h with
  | nested _ _ hentries _ => exact absurd (Value.map.inj hv).symm hentries
  | own _ hattributes heval _ =>
    subst hv
    refine ⟨_, ?_, heval⟩
    simp [hattributes]

end Template.Body

/-! ## Resources -/

theorem Resource.ofBlock?_of_drops {env : Environment} {body other : Body}
    (h : ReflTransGen (Body.Drops env ["count", "for_each"]) body other) (regions : Entries String)
    (kind : String) (labels : List String) :
    ofBlock? env regions (.mk kind labels other) = ofBlock? env regions (.mk kind labels body) := by
  have hcount : other.attribute? "count" = body.attribute? "count" :=
    Body.attribute?_of_drops h (by simp)
  have hforEach : other.attribute? "for_each" = body.attribute? "for_each" :=
    Body.attribute?_of_drops h (by simp)
  simp only [ofBlock?, Block.labels, Block.instances?, Block.body, hcount, hforEach,
    Body.values_of_drops h]

/-- A resource block in its place counts only by the resource that it becomes. -/
theorem resourcesOf_congr_block {env : Environment} {labels : List String} {body other : Body}
    (h : ∀ regions, Resource.ofBlock? env regions (.mk "resource" labels other) =
      Resource.ofBlock? env regions (.mk "resource" labels body))
    (earlier later : List Body) (attributes : List (String × Expr)) (before after : List Block) :
    resourcesOf (earlier ++ .mk attributes (before ++ .mk "resource" labels other :: after) :: later) env =
      resourcesOf (earlier ++ .mk attributes (before ++ .mk "resource" labels body :: after) :: later)
        env := by
  have hregions : ∀ inner, providerRegions
      (earlier ++ .mk attributes (before ++ .mk "resource" labels inner :: after) :: later) env =
        providerRegions (earlier ++ .mk attributes (before ++ after) :: later) env := by
    intro inner
    simp [providerRegions, Body.blocksOf, Body.blocks, Block.kind]
  simp only [resourcesOf, hregions, List.flatMap_append, List.flatMap_cons, Resource.ofBody,
    Body.blocksOf, Body.blocks, List.filter_append, List.filter_cons, Block.kind, decide_true, if_true,
    List.filterMap_append, List.filterMap_cons, h]

/-- Whatever is dropped of failing attributes and of blocks without entries, at any depth, the values stay.
Under each name they have what the last block of that kind with entries holds, else what the last
attribute of that name without a failure is; an empty map is never that of a block. So dropping failures
other than those of `count` and `for_each` from a resource changes no resource. -/
theorem failures_leave_no_trace (env : Environment) (body : Body) :
    (∀ kept other, ReflTransGen (Body.Drops env kept) body other →
      other.values env = body.values env) ∧
    (body.values env).Sorted ∧
    (∀ name v, (body.values env).get? name = some v ↔ body.Gives env name v) ∧
    (∀ name, (body.values env).get? name = some (.map []) →
      ∃ e, (name, e) ∈ body.attributes ∧ e.eval env = .ok (.map [])) ∧
    ∀ other, ReflTransGen (Body.Drops env ["count", "for_each"]) body other → ∀ labels,
      (∀ regions, Resource.ofBlock? env regions (.mk "resource" labels other) =
        Resource.ofBlock? env regions (.mk "resource" labels body)) ∧
      ∀ earlier later attributes before after,
        resourcesOf
            (earlier ++ .mk attributes (before ++ .mk "resource" labels other :: after) :: later) env =
          resourcesOf
            (earlier ++ .mk attributes (before ++ .mk "resource" labels body :: after) :: later) env := by
  refine ⟨?_, Body.sorted_values env body, ?_, ?_, ?_⟩
  · intro kept other h
    exact Body.values_of_drops h
  · intro name v
    exact Body.get?_values_eq_some_iff
  · intro name h
    exact Body.exists_attribute_of_get?_empty h
  · intro other h labels
    have hblock := fun regions => Resource.ofBlock?_of_drops h regions "resource" labels
    exact ⟨hblock, resourcesOf_congr_block hblock⟩

/-- An instance with failures in its attributes, in a block and in all that another block holds. -/
def failingInstance : Body :=
  .mk [("count", .string "2"), ("ami", .null), ("region", .string "eu")]
    [.mk "disk" [] (.mk [("size", .null)] [.mk "tags" [] (.mk [] [])]),
      .mk "network" [] (.mk [("id", .string "n"), ("zone", .unary .negate .null)] [])]

theorem failing_instance_stays :
    let other := Body.mk [("count", .string "2"), ("region", .string "eu")]
      [.mk "network" [] (.mk [("id", .string "n")] [])]
    other.values [] = failingInstance.values [] ∧
      Resource.ofBlock? [] [] (.mk "resource" ["aws_instance", "web"] other) =
        Resource.ofBlock? [] [] (.mk "resource" ["aws_instance", "web"] failingInstance) ∧
      (failingInstance.values []).get? "network" = some (.map [("id", .string "n")]) := by
  intro other
  let count : String × Expr := ("count", .string "2")
  let region : String × Expr := ("region", .string "eu")
  let zone : String × Expr := ("zone", .unary .negate .null)
  have hami : Body.Drops [] ["count", "for_each"] failingInstance
      (.mk [count, region] failingInstance.blocks) :=
    @Body.Drops.own [] _ [count] _ _ _ _ (by decide) .null
  have hdisk : Body.Drops [] ["count", "for_each"] (.mk [count, region] failingInstance.blocks)
      (.mk [count, region] [.mk "network" [] (.mk [("id", .string "n"), zone] [])]) :=
    @Body.Drops.nested [] _ _ [] _ _ (by decide)
  have hzone : Body.Drops [] ["count", "for_each"]
      (.mk [count, region] [.mk "network" [] (.mk [("id", .string "n"), zone] [])]) other :=
    @Body.Drops.inside [] _ _ [] _ _ _ _ _ (@Body.Drops.own [] _ [_] [] _ _ _ (by decide) (.unary _ _))
  have hdropped := ((ReflTransGen.single hami).tail hdisk).tail hzone
  obtain ⟨hvalues, _, _, _, hresource⟩ := failures_leave_no_trace [] failingInstance
  refine ⟨hvalues _ other hdropped, (hresource other hdropped _).1 [], ?_⟩
  rw [← hvalues _ other hdropped]
  rfl

end TemplateCost
