import TemplateCost.Proofs.Loading.Assembly
import TemplateCost.Proofs.Template.References
import TemplateCost.Proofs.Variable

/-! # What overrides can change

An override binds its own name and no other. Loading looks names up only while it evaluates the blocks
of resources, providers and data, so overrides that agree on the names that these read lead to the same
resources, the same queries or the same error.
-/
namespace TemplateCost
open Template Entries

/-- The names that the blocks of resources, providers and data read. -/
def namesRead (bodies : List Body) : List String :=
  ["resource", "provider", "data"].flatMap fun kind =>
    (bodies.flatMap (Body.blocksOf kind)).flatMap fun block => block.body.reads

namespace Variable
variable (declarations : Entries Variable) (assigned : Option (Entries Value))

theorem environment_agreeOn {names : List String} {overrides others : Entries String}
    (ho : overrides.Sorted) (ht : others.Sorted) (h : AgreeOn names overrides others) :
    AgreeOn names (environment declarations assigned overrides)
      (environment declarations assigned others) := by
  intro name hn
  rw [get?_environment declarations assigned ho, get?_environment declarations assigned ht,
    h name hn]

end Variable

/-! ## Blocks -/

section
variable {env other : Environment} {block : Block}

theorem providerRegion?_congr (h : AgreeOn block.body.reads env other) :
    providerRegion? env block = providerRegion? other block := by
  simp only [providerRegion?]
  cases hregion : block.body.attribute? "region" with
  | none => rfl
  | some e =>
    have hvalue : e.value? env = e.value? other := by
      rw [Expr.value?, Expr.value?, Expr.eval_congr e (h.mono (Body.reads_attribute? hregion))]
    simp only [Option.bind_eq_bind, Option.bind_some, hvalue]

theorem instances?_congr (h : AgreeOn block.body.reads env other) :
    block.instances? env = block.instances? other := by
  rw [Block.instances?, Block.instances?, Body.attribute?_congr h, Body.attribute?_congr h]

theorem ofBlock?_congr (regions : Entries String) (h : AgreeOn block.body.reads env other) :
    Resource.ofBlock? env regions block = Resource.ofBlock? other regions block := by
  rw [Resource.ofBlock?, Resource.ofBlock?, instances?_congr h, Body.values_congr block.body h]

theorem query?_congr (sources : DataSources) (h : AgreeOn block.body.reads env other) :
    sources.query? env block = sources.query? other block := by
  rw [DataSources.query?, DataSources.query?, Body.values_congr block.body h]

end

/-! ## Directories -/

section
variable {bodies : List Body} {env other : Environment}

/-- Blocks of the kinds that are evaluated have nothing but these names to look up. -/
theorem agreeOn_block (h : AgreeOn (namesRead bodies) env other) {kind : String}
    (hkind : kind ∈ ["resource", "provider", "data"]) {block : Block}
    (hblock : block ∈ bodies.flatMap (Body.blocksOf kind)) : AgreeOn block.body.reads env other :=
  (h.of_mem hkind).of_mem hblock

theorem providerRegions_congr (h : AgreeOn (namesRead bodies) env other) :
    providerRegions bodies env = providerRegions bodies other := by
  rw [providerRegions, providerRegions]
  congr 2
  refine List.filterMap_congr ?_
  intro block hb
  exact providerRegion?_congr (agreeOn_block h (by decide) hb)

theorem resourcesOf_congr (h : AgreeOn (namesRead bodies) env other) :
    resourcesOf bodies env = resourcesOf bodies other := by
  rw [resourcesOf, resourcesOf, providerRegions_congr h]
  refine List.flatMap_congr ?_
  intro body hbody
  refine List.filterMap_congr ?_
  intro block hb
  exact ofBlock?_congr _
    (agreeOn_block h (by decide) (List.mem_flatMap.mpr ⟨body, hbody, hb⟩))

theorem queries_congr (sources : DataSources) (h : AgreeOn (namesRead bodies) env other) :
    sources.queries env bodies = sources.queries other bodies := by
  refine List.filterMap_congr ?_
  intro block hb
  exact query?_congr sources (agreeOn_block h (by decide) hb)

theorem map_congr_of_ok {ε α β : Type} {result : Except ε α} {f g : α → β}
    (h : ∀ a, result = .ok a → f a = g a) : result.map f = result.map g := by
  cases result with
  | error e => rfl
  | ok a => exact congrArg Except.ok (h a rfl)

theorem assemble_congr (sources : Option DataSources) (h : AgreeOn (namesRead bodies) env other) :
    assemble bodies env sources = assemble bodies other sources := by
  have hqueries : (sources.map fun s => s.queries env bodies) =
      sources.map fun s => s.queries other bodies := by
    cases sources with
    -- rewritten, since the queries of both environments would be evaluated to compare them
    | none => rw [Option.map_none, Option.map_none]
    | some s => rw [Option.map_some, Option.map_some, queries_congr s h]
  simp only [assemble, hqueries, resourcesOf_congr h]

end

theorem load_congr {directory : Directory} {overrides others : Entries String}
    (sources : Option DataSources) (ho : overrides.Sorted) (ht : others.Sorted)
    (h : ∀ bodies, directory.bodies = .ok bodies → AgreeOn (namesRead bodies) overrides others) :
    load directory overrides sources = load directory others sources := by
  rw [load_eq_map, load_eq_map]
  refine map_congr_of_ok ?_
  intro bodies hbodies
  have henv : AgreeOn (namesRead bodies) (directory.environment overrides bodies)
      (directory.environment others bodies) :=
    Variable.environment_agreeOn _ _ ho ht (h bodies hbodies)
  exact assemble_congr sources henv

/-- Environments that agree on what an expression reads evaluate it alike, and overrides that agree on
what the blocks of a directory read load it alike, whether loading succeeds or not. -/
theorem unread_names_irrelevant :
    (∀ (e : Expr) (env other : Environment), AgreeOn e.reads env other →
      e.eval env = e.eval other) ∧
    ∀ (directory : Directory) (overrides others : Entries String) (sources : Option DataSources),
      overrides.Sorted → others.Sorted →
      (∀ bodies, directory.bodies = .ok bodies → AgreeOn (namesRead bodies) overrides others) →
      load directory overrides sources = load directory others sources := by
  refine ⟨?_, ?_⟩
  · intro e env other h
    exact Expr.eval_congr e h
  · intro directory overrides others sources ho ht h
    exact load_congr sources ho ht h

/-- A region that depends on one variable, loaded with and without an override of another one. -/
theorem unread_override_irrelevant :
    let directory := Directory.ofLines [
      "variable \"zone\" \x7b\x7d",
      "resource \"aws_instance\" \"web\" \x7b",
      "  region = var.region == \"main\" ? \"$\x7bvar.home\x7d-1\" : \"us-east-1\"",
      "\x7d"]
    load directory [("home", "eu"), ("region", "main")] none =
      load directory [("home", "eu"), ("region", "main"), ("zone", "a")] none := by
  intro directory
  have hread : directory.bodies.toOption.map namesRead = some ["region", "home"] := by
    decide +kernel
  refine unread_names_irrelevant.2 directory _ _ none (by decide) (by decide) ?_
  intro bodies hbodies
  rw [hbodies] at hread
  have hnames : namesRead bodies = ["region", "home"] := Option.some.inj hread
  rw [hnames]
  decide

end TemplateCost
