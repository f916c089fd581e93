import TemplateCost.Loading
import TemplateCost.Proofs.Substitution.Unknown

/-! # What loading gives

Loading succeeds exactly on a directory with bodies, and its resources are those of the bodies in the
environment that the directory settles, with what the sources answered put in. A resource says in its
fields all that its block decides.
-/
namespace TemplateCost
open Template Substitution

/-- The environment that a directory settles for its bodies. -/
def Directory.environment (directory : Directory) (overrides : Entries String)
    (bodies : List Body) : Environment :=
  Variable.environment (Variable.declared bodies) (directory.listing.toOption.bind directory.assigned)
    overrides

/-- A directory whose only file is a template of these lines. -/
def Directory.ofLines (lines : List String) : Directory where
  path := ⟨"infra"⟩
  listing := .ok [(⟨"infra/main.tf"⟩, .ok (String.intercalate "\n" (lines ++ [""])))]

/-- What the sources answer to the queries of bodies. -/
def answered (sources : Option DataSources) (bodies : List Body) (env : Environment) :
    Entries Value :=
  (sources.map fun s => s.answers (s.queries env bodies)).getD []

theorem load_eq_map (directory : Directory) (overrides : Entries String)
    (sources : Option DataSources) :
    load directory overrides sources = directory.bodies.map fun bodies =>
      assemble bodies (directory.environment overrides bodies) sources := by
  rw [load]
  cases directory.bodies <;> rfl

theorem load_eq_ok_iff {directory : Directory} {overrides : Entries String}
    {sources : Option DataSources} {loaded : Loaded} :
    load directory overrides sources = .ok loaded ↔
      ∃ bodies, directory.bodies = .ok bodies ∧
        assemble bodies (directory.environment overrides bodies) sources = loaded := by
  rw [load]
  cases hbodies : directory.bodies with
  | error e =>
    constructor
    · intro h
      cases h
    · rintro ⟨bodies, h, _⟩
      cases h
  | ok bodies =>
    constructor
    · intro h
      exact ⟨bodies, rfl, Except.ok.inj h⟩
    · rintro ⟨_, h, hloaded⟩
      cases h
      exact congrArg Except.ok hloaded

/-- What is seen of an outcome is seen of a loaded template. -/
theorem exists_loaded {α : Type} {directory : Directory} {overrides : Entries String}
    {sources : Option DataSources} {view : Loaded → α} {seen : α}
    (h : (load directory overrides sources).toOption.map view = some seen) :
    ∃ loaded, load directory overrides sources = .ok loaded ∧ view loaded = seen := by
  cases hload : load directory overrides sources with
  | error e =>
    rw [hload] at h
    cases h
  | ok loaded =>
    rw [hload] at h
    exact ⟨loaded, rfl, Option.some.inj h⟩

/-- What is seen of an outcome is seen of the parsed bodies. -/
theorem Directory.exists_bodies {directory : Directory} {p : List Body → Bool}
    (h : directory.bodies.toOption.any p = true) :
    ∃ bodies, directory.bodies = .ok bodies ∧ p bodies = true := by
  cases hbodies : directory.bodies with
  | error e =>
    rw [hbodies] at h
    cases h
  | ok bodies =>
    rw [hbodies] at h
    exact ⟨bodies, rfl, h⟩

/-- To substitute nothing and not to substitute are the same. -/
theorem resources_assemble (bodies : List Body) (env : Environment)
    (sources : Option DataSources) :
    (assemble bodies env sources).inventory.resources =
      (resourcesOf bodies env).map (Resource.substitute (answered sources bodies env)) := by
  have hanswers : (sources.map fun s =>
      s.answers ((sources.map fun s => s.queries env bodies).getD [])).getD [] =
        answered sources bodies env := by
    cases sources <;> rfl
  rw [assemble, Inventory.of, hanswers]
  cases hempty : answered sources bodies env with
  | nil =>
    have hkeep : Resource.substitute [] = id := funext Resource.substitute_nil
    simp [hkeep]
  | cons entry rest => rfl

/-! ## Resources of blocks -/

theorem Resource.ofBlock?_eq_some_iff {env : Environment} {regions : Entries String}
    {block : Block} {r : Resource} :
    ofBlock? env regions block = some r ↔
      (∃ labels, block.labels = r.type :: r.name :: labels) ∧
      block.instances? env = some r.count ∧ 0 < r.count ∧
      r.attributes = block.body.values env ∧ r.provider = providerOf r.type ∧
      r.region = ((ownRegion? r.attributes).or (regions.get? r.provider)).getD "" := by
  rw [ofBlock?]
  constructor
  · intro h
    split at h
    · rename_i type name labels hlabels
      obtain ⟨count, hcount, h⟩ := Option.bind_eq_some_iff.mp h
      split at h
      · cases h
        exact ⟨⟨labels, hlabels⟩, hcount, by assumption, rfl, rfl, rfl⟩
      · cases h
    · cases h
  · rintro ⟨⟨labels, hlabels⟩, hcount, hpos, hattributes, hprovider, hregion⟩
    rw [hlabels, hcount]
    cases r
    simp_all

theorem mem_resourcesOf_iff {bodies : List Body} {env : Environment} {r : Resource} :
    r ∈ resourcesOf bodies env ↔ ∃ body ∈ bodies, ∃ block ∈ body.blocksOf "resource",
      Resource.ofBlock? env (providerRegions bodies env) block = some r := by
  simp [resourcesOf, Resource.ofBody]

/-- The block stands in one of the bodies and becomes this resource, with data put in. -/
def Resource.IsFrom (bodies : List Body) (env : Environment) (sources : Option DataSources)
    (block : Block) (r : Resource) : Prop :=
  (∃ body ∈ bodies, block ∈ body.blocksOf "resource") ∧
    ∃ s, ofBlock? env (providerRegions bodies env) block = some s ∧
      s.substitute (answered sources bodies env) = r

theorem mem_resources_iff {bodies : List Body} {env : Environment} {sources : Option DataSources}
    {r : Resource} :
    r ∈ (assemble bodies env sources).inventory.resources ↔
      ∃ block, Resource.IsFrom bodies env sources block r := by
  rw [resources_assemble, List.mem_map]
  constructor
  · rintro ⟨s, hs, rfl⟩
    obtain ⟨body, hbody, block, hblock, hof⟩ := mem_resourcesOf_iff.mp hs
    exact ⟨block, ⟨body, hbody, hblock⟩, s, hof, rfl⟩
  · rintro ⟨block, ⟨body, hbody, hblock⟩, s, hof, rfl⟩
    exact ⟨s, mem_resourcesOf_iff.mpr ⟨body, hbody, block, hblock, hof⟩, rfl⟩

namespace Resource.IsFrom
variable {bodies : List Body} {env : Environment} {sources : Option DataSources} {block : Block}
  {r : Resource}

theorem attributes_eq (h : IsFrom bodies env sources block r) :
    r.attributes = replaceEntries (answered sources bodies env) (block.body.values env) := by
  obtain ⟨_, s, hof, rfl⟩ := h
  obtain ⟨_, _, _, hattributes, _⟩ := ofBlock?_eq_some_iff.mp hof
  rw [substitute, hattributes]

theorem instances?_eq (h : IsFrom bodies env sources block r) :
    block.instances? env = some r.count := by
  obtain ⟨_, s, hof, rfl⟩ := h
  obtain ⟨_, hcount, _⟩ := ofBlock?_eq_some_iff.mp hof
  exact hcount

end Resource.IsFrom

end TemplateCost
