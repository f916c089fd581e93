import Mathlib.Data.List.TakeWhile
import TemplateCost.Proofs.Decimal.Integer
import TemplateCost.Proofs.Loading.Multiplicity
import TemplateCost.Proofs.Template.Collections

/-! # Which blocks become resources

A `resource` block with a type and a name becomes one resource if it stands for a known and positive
number of instances. Nothing else does, and no block looks at another one. Where `for_each` is given
it alone says how many instances there are, also by failing.
-/
namespace TemplateCost
open Template

/-- The entries of a map or the items of a list; any other shape stands for one instance. -/
def Value.instances : Value → ℕ
  | .map entries => entries.length
  | .list items => items.length
  | _ => 1

/-- The integer that a value of `count` is read as. -/
inductive Multiplicity.IsCount : Value → Int64 → Prop
  | integer (i : Int64) : IsCount (.number (.int i)) i
  | double {f : Float} {b : Decimal.Binary64} (h : Decimal.Binary64.ofFloat? f = some b) :
      IsCount (.number (.float f)) (Decimal.clampInt64 b.truncate)
  | text {text : String} {n : Int64} (h : Decimal.readInt64? (Text.trim text.toList) = some n) :
      IsCount (.string text) n

/-- The block stands for this many instances. -/
inductive Template.Block.StandsFor (env : Environment) (block : Block) : Int64 → Prop
  | forEach {e : Expr} {v : Value} (he : block.body.attribute? "for_each" = some e)
      (hv : e.eval env = .ok v) : StandsFor env block (Int64.ofInt v.instances)
  | count {e : Expr} {v : Value} {n : Int64} (hforEach : block.body.attribute? "for_each" = none)
      (he : block.body.attribute? "count" = some e) (hv : e.eval env = .ok v)
      (hn : Multiplicity.IsCount v n) : StandsFor env block n
  | single (hforEach : block.body.attribute? "for_each" = none)
      (hcount : block.body.attribute? "count" = none) : StandsFor env block 1

/-- The block has a type and a name and stands for a positive number of instances. -/
def Template.Block.IsMaterialized (env : Environment) (block : Block) : Prop :=
  2 ≤ block.labels.length ∧ ∃ n, block.StandsFor env n ∧ 0 < n

/-- What stands before the first underscore of a type, if there is one. -/
def IsTypePrefix (provider type : String) : Prop :=
  '_' ∉ provider.toList ∧ (type = provider ∨ ∃ rest, type = provider ++ "_" ++ rest)

/-- The resource that a block becomes. -/
structure Resource.IsOf (env : Environment) (regions : Entries String) (block : Block)
    (r : Resource) : Prop where
  labels : ∃ others, block.labels = r.type :: r.name :: others
  count : block.StandsFor env r.count
  count_pos : 0 < r.count
  attributes : r.attributes = block.body.values env
  provider : IsTypePrefix r.provider r.type
  region : r.region = ((ownRegion? r.attributes).or (regions.get? r.provider)).getD ""

/-! ## Multiplicity -/

namespace Multiplicity

theorem ofForEach_eq (v : Value) : ofForEach v = Int64.ofInt v.instances := by
  cases v <;> rfl

theorem ofCount?_eq_some_iff {v : Value} {n : Int64} : ofCount? v = some n ↔ IsCount v n := by
  constructor
  · intro h
    cases v with
    | number x =>
      cases x with
      | int i =>
        cases h
        exact .integer n
      | float f =>
        obtain ⟨b, hb, rfl⟩ := Option.map_eq_some_iff.mp h
        exact .double hb
    | string text => exact .text h
    | _ => cases h
  · intro h
    cases h with
    | integer => rfl
    | double hb => exact Option.map_eq_some_iff.mpr ⟨_, hb, rfl⟩
    | text h => exact h

end Multiplicity

theorem Template.Block.instances?_eq_some_iff {env : Environment} {block : Block} {n : Int64} :
    block.instances? env = some n ↔ block.StandsFor env n := by
  rw [instances?]
  cases hforEach : block.body.attribute? "for_each" with
  | some e =>
    rw [Option.map_some, Multiplicity.instances?_forEach_iff]
    constructor
    · rintro ⟨v, hv, rfl⟩
      rw [Multiplicity.ofForEach_eq]
      exact .forEach hforEach hv
    · intro h
      cases h with
      | forEach he hv =>
        cases hforEach.symm.trans he
        exact ⟨_, hv, Multiplicity.ofForEach_eq _⟩
      | count hnone => cases hforEach.symm.trans hnone
      | single hnone => cases hforEach.symm.trans hnone
  | none =>
    cases hcount : block.body.attribute? "count" with
    | some e =>
      rw [Option.map_some, Option.map_none, Multiplicity.instances?_count_iff]
      constructor
      · rintro ⟨v, hv, hn⟩
        exact .count hforEach hcount hv (Multiplicity.ofCount?_eq_some_iff.mp hn)
      · intro h
        cases h with
        | forEach he => cases hforEach.symm.trans he
        | count _ he hv hn =>
          cases hcount.symm.trans he
          exact ⟨_, hv, Multiplicity.ofCount?_eq_some_iff.mpr hn⟩
        | single _ hnone => cases hcount.symm.trans hnone
    | none =>
      constructor
      · intro h
        cases h
        exact .single hforEach hcount
      · intro h
        cases h with
        | forEach he => cases hforEach.symm.trans he
        | count _ he => cases hcount.symm.trans he
        | single => rfl

instance (env : Environment) (block : Block) : Decidable (block.IsMaterialized env) :=
  decidable_of_iff (2 ≤ block.labels.length ∧ (block.instances? env).any (0 < ·) = true) (by
    rw [Block.IsMaterialized, Option.any_eq_true]
    simp only [Block.instances?_eq_some_iff, decide_eq_true_eq])

/-! ## Providers -/

theorem providerOf_of_not_mem {type : String} (h : '_' ∉ type.toList) : providerOf type = type := by
  have hall : ∀ c ∈ type.toList, decide (c ≠ '_') = true :=
    fun c hc => decide_eq_true fun heq => h (heq ▸ hc)
  rw [providerOf, List.takeWhile_eq_self_iff.mpr hall, String.ofList_toList]

theorem providerOf_of_append {type : String} {before rest : List Char} (h : '_' ∉ before)
    (htype : type.toList = before ++ '_' :: rest) : providerOf type = String.ofList before := by
  have hall : ∀ c ∈ before, decide (c ≠ '_') = true :=
    fun c hc => decide_eq_true fun heq => h (heq ▸ hc)
  rw [providerOf, htype, List.takeWhile_append_of_pos hall, List.takeWhile_cons_of_neg (by simp),
    List.append_nil]

theorem isTypePrefix_iff {provider type : String} :
    IsTypePrefix provider type ↔ providerOf type = provider := by
  constructor
  · rintro ⟨hno, rfl | ⟨rest, rfl⟩⟩
    · exact providerOf_of_not_mem hno
    · have htype : (provider ++ "_" ++ rest).toList = provider.toList ++ '_' :: rest.toList := by
        simp
      rw [providerOf_of_append hno htype, String.ofList_toList]
  · rintro rfl
    by_cases hmem : '_' ∈ type.toList
    · obtain ⟨before, rest, htype, hno⟩ := List.eq_append_cons_of_mem hmem
      have hjoined : type = String.ofList before ++ "_" ++ String.ofList rest := by
        rw [← String.toList_inj]
        simp [htype]
      rw [providerOf_of_append hno htype]
      exact ⟨by simpa using hno, Or.inr ⟨String.ofList rest, hjoined⟩⟩
    · rw [providerOf_of_not_mem hmem]
      exact ⟨hmem, Or.inl rfl⟩

/-! ## Resources -/

namespace Resource
variable {env : Environment} {regions : Entries String}

theorem ofBlock?_eq_some_iff_isOf {block : Block} {r : Resource} :
    ofBlock? env regions block = some r ↔ r.IsOf env regions block := by
  rw [ofBlock?_eq_some_iff, Block.instances?_eq_some_iff, @eq_comm _ r.provider, ← isTypePrefix_iff]
  constructor
  · rintro ⟨hlabels, hcount, hpos, hattributes, hprovider, hregion⟩
    exact ⟨hlabels, hcount, hpos, hattributes, hprovider, hregion⟩
  · intro h
    exact ⟨h.labels, h.count, h.count_pos, h.attributes, h.provider, h.region⟩

theorem isSome_ofBlock?_iff {block : Block} :
    (ofBlock? env regions block).isSome = true ↔ block.IsMaterialized env := by
  rw [ofBlock?, Block.IsMaterialized]
  constructor
  · intro h
    obtain ⟨r, hr⟩ := Option.isSome_iff_exists.mp h
    have hof := ofBlock?_eq_some_iff_isOf.mp hr
    obtain ⟨others, hlabels⟩ := hof.labels
    refine ⟨by simp [hlabels], r.count, hof.count, hof.count_pos⟩
  · rintro ⟨hlabels, n, hn, hpos⟩
    cases hlist : block.labels with
    | nil => simp [hlist] at hlabels
    | cons type rest =>
      cases rest with
      | nil => simp [hlist] at hlabels
      | cons name others =>
        rw [Block.instances?_eq_some_iff.mpr hn]
        simp [hpos]

/-- A block becomes a resource of its template iff it stands for an instance. -/
theorem exists_isOf_iff {body : Body} {block : Block} (hblock : block ∈ body.blocksOf "resource") :
    (∃ r ∈ ofBody env regions body, r.IsOf env regions block) ↔ block.IsMaterialized env := by
  rw [← @isSome_ofBlock?_iff env regions, Option.isSome_iff_exists]
  constructor
  · rintro ⟨r, _, hof⟩
    exact ⟨r, ofBlock?_eq_some_iff_isOf.mpr hof⟩
  · rintro ⟨r, hr⟩
    exact ⟨r, List.mem_filterMap.mpr ⟨block, hblock, hr⟩, ofBlock?_eq_some_iff_isOf.mp hr⟩

end Resource

theorem Resource.forall₂_ofBodies (bodies : List Body) (env : Environment)
    (regions : Entries String) :
    List.Forall₂ (fun block r => r.IsOf env regions block)
      ((bodies.flatMap (Body.blocksOf "resource")).filter (Block.IsMaterialized env ·))
      (bodies.flatMap (Resource.ofBody env regions)) := by
  have hflat : bodies.flatMap (Resource.ofBody env regions) =
      (bodies.flatMap (Body.blocksOf "resource")).filterMap (Resource.ofBlock? env regions) := by
    rw [List.filterMap_flatMap]
    rfl
  rw [hflat]
  refine (forall₂_filterMap (fun block => Resource.isSome_ofBlock?_iff) _).imp ?_
  intro block r hr
  exact Resource.ofBlock?_eq_some_iff_isOf.mp hr

/-! ## Templates -/

/-- The provider is that of the first resource and the region is the first known one. -/
structure Inventory.IsSummary (inventory : Inventory) : Prop where
  provider : ∀ first ∈ inventory.resources.head?, IsTypePrefix inventory.provider first.type
  provider_empty : inventory.resources = [] → inventory.provider = ""
  region : ∀ before r after, inventory.resources = before ++ r :: after →
    (∀ earlier ∈ before, earlier.region = "") → r.region ≠ "" → inventory.region = r.region
  region_empty : (∀ r ∈ inventory.resources, r.region = "") → inventory.region = ""

theorem Inventory.isSummary_of (resources : List Resource) : (Inventory.of resources).IsSummary where
  provider := by
    intro first hfirst
    have hhead : resources.head? = some first := hfirst
    rw [isTypePrefix_iff, of, hhead, Option.map_some, Option.getD_some]
  provider_empty := by
    rintro rfl
    rfl
  region := by
    rintro before r after rfl hbefore hr
    have hfound : ((before ++ r :: after).map Resource.region).find? (· ≠ "") = some r.region := by
      rw [List.map_append, List.map_cons, List.find?_append, List.find?_eq_none.mpr, Option.none_or,
        List.find?_cons_of_pos (by simpa using hr)]
      simpa using hbefore
    rw [of, hfound, Option.getD_some]
  region_empty := by
    intro h
    have hempty : ∀ r ∈ resources, r.region = "" := h
    have hnone : (resources.map Resource.region).find? (· ≠ "") = none := by
      rw [List.find?_eq_none]
      simpa using hempty
    rw [of, hnone, Option.getD_none]

/-- Bodies give one resource for each materialized block, in order, and no other; what stands beside a
block does not matter to it. A loaded template holds these resources, with data put in, and takes its
provider and its region from them. -/
theorem blocks_materialized (bodies : List Body) (env : Environment) (regions : Entries String) :
    List.Forall₂ (fun block r => r.IsOf env regions block)
      ((bodies.flatMap (Body.blocksOf "resource")).filter (Block.IsMaterialized env ·))
      (bodies.flatMap (Resource.ofBody env regions)) ∧
    (∀ attributes others blocks more,
      Resource.ofBody env regions (.mk attributes (blocks ++ more)) =
        Resource.ofBody env regions (.mk attributes blocks) ++
          Resource.ofBody env regions (.mk others more)) ∧
    (∀ v : Value, v.instances < 2 ^ 63 → (Int64.ofInt v.instances).toInt = v.instances) ∧
    ∀ (directory : Directory) (overrides : Entries String) (sources : Option DataSources)
      (loaded : Loaded), load directory overrides sources = .ok loaded →
      loaded.inventory.IsSummary ∧ ∃ bodies, directory.bodies = .ok bodies ∧
        let env := directory.environment overrides bodies
        loaded.inventory.resources =
          (bodies.flatMap (Resource.ofBody env (providerRegions bodies env))).map
            (Resource.substitute (answered sources bodies env)) := by
  refine ⟨Resource.forall₂_ofBodies bodies env regions, ?_, ?_, ?_⟩
  · intro attributes others blocks more
    simp only [Resource.ofBody, Body.blocksOf, Body.blocks, List.filter_append, List.filterMap_append]
  · intro v hv
    exact (Decimal.toInt64?_ofNat hv).2
  · intro directory overrides sources loaded h
    obtain ⟨bodies, hbodies, rfl⟩ := load_eq_ok_iff.mp h
    exact ⟨Inventory.isSummary_of _, bodies, hbodies, resources_assemble _ _ _⟩

/-- Disks with a size of every shape, or with one that fails. -/
def disksDirectory : Directory :=
  .ofLines [
    "resource \"aws_disk\" \"failing\" \x7b",
    "  for_each = [for s in var.all : s]",
    "  count = 2",
    "\x7d",
    "resource \"aws_disk\" \"text\" \x7b",
    "  count = \" 2 \"",
    "\x7d",
    "resource \"aws_disk\" \"cut\" \x7b",
    "  count = 2.9",
    "\x7d",
    "resource \"aws_disk\" \"empty\" \x7b",
    "  for_each = \x7b\x7d",
    "\x7d",
    "resource \"aws_disk\" \x7b\x7d",
    "resource \"gcp_disk\" \"called\" \x7b",
    "  for_each = toset([])",
    "  region = \"eu\"",
    "\x7d"]

theorem disks_materialized :
    ∃ loaded, load disksDirectory [] none = .ok loaded ∧ loaded.inventory.IsSummary ∧
      loaded.inventory.resources.map (fun r => (r.name, r.count)) =
        [("text", 2), ("cut", 2), ("called", 1)] ∧
      (loaded.inventory.provider, loaded.inventory.region) = ("aws", "eu") := by
  have hseen : (load disksDirectory [] none).toOption.map (fun loaded =>
      (loaded.inventory.resources.map fun r => (r.name, r.count),
        loaded.inventory.provider, loaded.inventory.region)) =
        some ([("text", 2), ("cut", 2), ("called", 1)], "aws", "eu") := by
    decide +kernel
  obtain ⟨loaded, hload, hview⟩ := exists_loaded hseen
  obtain ⟨hresources, hregion⟩ := Prod.mk.inj hview
  have hsummary := ((blocks_materialized [] [] []).2.2.2 disksDirectory [] none loaded hload).1
  exact ⟨loaded, hload, hsummary, hresources, hregion⟩

end TemplateCost
