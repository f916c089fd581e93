import TemplateCost.Proofs.Loading.Extraction
import TemplateCost.Proofs.Loading.Location
import TemplateCost.Proofs.Template.Distinct

/-! # Regions of providers

The region of a provider is that of the first block, file by file, which settles one for it. A block
settles a region by its first label and by text that is plain. One that does not is as good as none, so
it never hides a later one. A resource that names no region in plain text takes the region of its
provider, in whatever file the two stand.
-/
namespace TemplateCost
open Template Entries

/-- Text that can be a region. -/
structure Text.IsPlain (text : String) : Prop where
  ne_empty : text ≠ ""
  not_isMarked : ¬ Text.IsMarked text

/-- What a `provider` block says: the region of the provider that its first label names. -/
structure Template.Block.Settles (env : Environment) (block : Block) (provider region : String) :
    Prop where
  label : ∃ others, block.labels = provider :: others
  value : ∃ e, block.body.attribute? "region" = some e ∧ e.eval env = .ok (.string region)
  plain : Text.IsPlain region

/-- The ways to settle nothing. -/
inductive Template.Block.IsSilent (env : Environment) (block : Block) : Prop
  | unlabelled (h : block.labels = [])
  | unspecified (h : ∀ e, ("region", e) ∉ block.body.attributes)
  | failing {e : Expr} (he : block.body.attribute? "region" = some e) (h : e.Fails env)
  | unresolved {e : Expr} {v : Value} (he : block.body.attribute? "region" = some e)
      (hv : e.eval env = .ok v) (h : ∀ text, v = .string text → ¬ Text.IsPlain text)

/-- The first block, file by file, that settles a region for this provider settles this one. -/
def IsRecorded (bodies : List Body) (env : Environment) (provider region : String) : Prop :=
  ∃ before block after, bodies.flatMap (Body.blocksOf "provider") = before ++ block :: after ∧
    block.Settles env provider region ∧
    ∀ earlier ∈ before, ∀ other, ¬ earlier.Settles env provider other

/-- The region that a resource takes. -/
inductive Resource.Takes (bodies : List Body) (env : Environment) (r : Resource) : String → Prop
  | own {region : String} (h : r.attributes.get? "region" = some (.string region))
      (hplain : Text.IsPlain region) : Takes bodies env r region
  | provider {region : String}
      (hown : ∀ text, r.attributes.get? "region" = some (.string text) → ¬ Text.IsPlain text)
      (h : IsRecorded bodies env r.provider region) : Takes bodies env r region
  | unknown
      (hown : ∀ text, r.attributes.get? "region" = some (.string text) → ¬ Text.IsPlain text)
      (h : ∀ region, ¬ IsRecorded bodies env r.provider region) : Takes bodies env r ""

theorem Value.plainText?_eq_some_iff_isPlain {v : Value} {text : String} :
    v.plainText? = some text ↔ v = .string text ∧ Text.IsPlain text := by
  rw [plainText?_eq_some_iff]
  constructor
  · rintro ⟨hv, hne, hplain⟩
    exact ⟨hv, hne, hplain⟩
  · rintro ⟨hv, hne, hplain⟩
    exact ⟨hv, hne, hplain⟩

/-! ## Blocks -/

section
variable {env : Environment} {block : Block}

theorem providerRegion?_eq_some_iff {provider region : String} :
    providerRegion? env block = some (provider, region) ↔ block.Settles env provider region := by
  simp only [providerRegion?, Option.bind_eq_bind, Option.bind_eq_some_iff, List.head?_eq_some_iff,
    Expr.value?_eq_some_iff, Value.plainText?_eq_some_iff_isPlain]
  constructor
  · rintro ⟨_, hlabel, e, he, v, hv, _, ⟨rfl, hplain⟩, hsame⟩
    cases hsame
    exact ⟨hlabel, ⟨e, he, hv⟩, hplain⟩
  · rintro ⟨hlabel, ⟨e, he, hv⟩, hplain⟩
    exact ⟨provider, hlabel, e, he, _, hv, region, ⟨rfl, hplain⟩, rfl⟩

theorem Template.Body.attribute?_eq_none_iff {body : Body} {name : String} :
    body.attribute? name = none ↔ ∀ e, (name, e) ∉ body.attributes := by
  simp only [attribute?, Option.map_eq_none_iff, List.find?_eq_none, decide_eq_true_eq]
  constructor
  · intro h e hmem
    exact h _ hmem rfl
  · rintro h ⟨_, e⟩ hmem rfl
    exact h e hmem

theorem Template.Block.isSilent_iff :
    block.IsSilent env ↔ ∀ provider region, ¬ block.Settles env provider region := by
  constructor
  · rintro h provider region ⟨⟨others, hlabels⟩, ⟨e, he, hv⟩, hplain⟩
    cases h with
    | unlabelled h => simp [h] at hlabels
    | unspecified h => simp [Body.attribute?_eq_none_iff.mpr h] at he
    | failing he' hfails =>
      cases he.symm.trans he'
      have hnone := Expr.value?_eq_none_iff.mpr hfails
      simp [Expr.value?_eq_some_iff.mpr hv] at hnone
    | unresolved he' hv' h =>
      cases he.symm.trans he'
      cases hv.symm.trans hv'
      exact h region rfl hplain
  · intro h
    cases hlabels : block.labels with
    | nil => exact .unlabelled hlabels
    | cons provider others =>
      cases he : block.body.attribute? "region" with
      | none => exact .unspecified (Body.attribute?_eq_none_iff.mp he)
      | some e =>
        by_cases hfails : e.Fails env
        · exact .failing he hfails
        · obtain ⟨v, hv⟩ := Expr.eval_eq_ok_of_not_fails hfails
          refine .unresolved he hv ?_
          rintro region rfl hplain
          exact h provider region ⟨⟨others, hlabels⟩, ⟨e, he, hv⟩, hplain⟩

theorem Template.Block.IsSilent.providerRegion?_eq_none (h : block.IsSilent env) :
    providerRegion? env block = none := by
  apply Option.eq_none_iff_forall_ne_some.mpr
  rintro ⟨provider, region⟩ hsettled
  exact Block.isSilent_iff.mp h provider region (providerRegion?_eq_some_iff.mp hsettled)

end

/-! ## Bodies -/

section
variable {bodies : List Body} {env : Environment}

theorem get?_providerRegions_eq_some_iff {provider region : String} :
    (providerRegions bodies env).get? provider = some region ↔
      IsRecorded bodies env provider region := by
  rw [providerRegions, get?_ofList, List.reverse_reverse, get?_filterMap_eq_some_iff]
  simp only [ne_eq, providerRegion?_eq_some_iff]
  rfl

theorem providerRegions_without {block : Block} (h : block.IsSilent env) (earlier later : List Body)
    (attributes : List (String × Expr)) (before after : List Block) :
    providerRegions (earlier ++ .mk attributes (before ++ block :: after) :: later) env =
      providerRegions (earlier ++ .mk attributes (before ++ after) :: later) env := by
  have hnone := h.providerRegion?_eq_none
  by_cases hkind : block.kind = "provider" <;>
    simp [providerRegions, Body.blocksOf, Body.blocks, hkind, hnone]

theorem distinct_of_parseAll {files : List (Path × String)} (h : parseAll files = .ok bodies) {body : Body}
    (hbody : body ∈ bodies) : body.Distinct := by
  simp only [parseAll] at h
  split at h
  · cases h
    obtain ⟨entry, hentry, hparsed⟩ := List.mem_filterMap.mp hbody
    obtain ⟨file, _, rfl⟩ := List.mem_map.mp hentry
    exact Body.distinct_ofText? hparsed
  · cases h

theorem Directory.distinct_of_mem_bodies {directory : Directory} (h : directory.bodies = .ok bodies)
    {body : Body} (hbody : body ∈ bodies) : body.Distinct := by
  simp only [Directory.bodies] at h
  cases hlisting : directory.listing with
  | error reason => simp [hlisting] at h
  | ok files =>
    cases htemplates : templateFiles files with
    | nil => simp [hlisting, htemplates] at h
    | cons first rest =>
      simp only [hlisting, htemplates] at h
      cases hread : readAll (first :: rest) with
      | error e =>
        rw [hread] at h
        cases h
      | ok texts =>
        rw [hread] at h
        exact distinct_of_parseAll h hbody

/-! ## Resources -/

theorem Resource.ownRegion?_eq_some_iff {attributes : Entries Value} {region : String} :
    ownRegion? attributes = some region ↔
      attributes.get? "region" = some (.string region) ∧ Text.IsPlain region := by
  simp only [ownRegion?, Option.bind_eq_bind, Option.bind_eq_some_iff, Value.plainText?_eq_some_iff_isPlain]
  constructor
  · rintro ⟨_, hget, rfl, hplain⟩
    exact ⟨hget, hplain⟩
  · rintro ⟨hget, hplain⟩
    exact ⟨_, hget, rfl, hplain⟩

theorem Resource.ownRegion?_eq_none_iff {attributes : Entries Value} :
    ownRegion? attributes = none ↔
      ∀ text, attributes.get? "region" = some (.string text) → ¬ Text.IsPlain text := by
  simp only [Option.eq_none_iff_forall_ne_some, ne_eq, ownRegion?_eq_some_iff, not_and]

theorem Resource.takes_iff {r : Resource} {region : String} :
    r.Takes bodies env region ↔
      ((ownRegion? r.attributes).or ((providerRegions bodies env).get? r.provider)).getD "" = region := by
  constructor
  · intro h
    cases h with
    | own hget hplain => simp [ownRegion?_eq_some_iff.mpr ⟨hget, hplain⟩]
    | provider hown hrecorded =>
      simp [ownRegion?_eq_none_iff.mpr hown, get?_providerRegions_eq_some_iff.mpr hrecorded]
    | unknown hown hunknown =>
      simp only [← get?_providerRegions_eq_some_iff, ← Option.eq_none_iff_forall_ne_some] at hunknown
      simp [ownRegion?_eq_none_iff.mpr hown, hunknown]
  · rintro rfl
    cases hown : ownRegion? r.attributes with
    | some own =>
      obtain ⟨hget, hplain⟩ := ownRegion?_eq_some_iff.mp hown
      exact .own hget hplain
    | none =>
      have hplain := ownRegion?_eq_none_iff.mp hown
      cases hrecorded : (providerRegions bodies env).get? r.provider with
      | some recorded => exact .provider hplain (get?_providerRegions_eq_some_iff.mp hrecorded)
      | none =>
        simp only [Option.eq_none_iff_forall_ne_some, ne_eq, get?_providerRegions_eq_some_iff] at hrecorded
        exact .unknown hplain hrecorded

end

/-- The recorded region of a provider is that of the first block, file by file, which settles one for it,
and the blocks that settle nothing count for nothing. A resource takes the region that it names itself in
plain text, else the recorded one of its provider, else none; and so does every resource that is loaded
where nothing is asked. In a loaded template, the region attribute of a block is the only one it has. -/
theorem regions_discovered (bodies : List Body) (env : Environment) :
    (∀ provider region, (providerRegions bodies env).get? provider = some region ↔
      IsRecorded bodies env provider region) ∧
    (∀ block : Block, (block.IsSilent env ↔ ∀ provider region, ¬ block.Settles env provider region) ∧
      (block.IsSilent env → ∀ earlier later attributes before after,
        providerRegions (earlier ++ .mk attributes (before ++ block :: after) :: later) env =
          providerRegions (earlier ++ .mk attributes (before ++ after) :: later) env)) ∧
    (∀ r ∈ resourcesOf bodies env, IsTypePrefix r.provider r.type ∧
      ∀ region, r.Takes bodies env region ↔ r.region = region) ∧
    ∀ (directory : Directory) (overrides : Entries String) (loaded : Loaded),
      load directory overrides none = .ok loaded → ∃ bodies, directory.bodies = .ok bodies ∧
        loaded.inventory.resources = resourcesOf bodies (directory.environment overrides bodies) ∧
        ∀ body ∈ bodies, ∀ block ∈ body.blocks, ∀ e,
          block.body.attribute? "region" = some e ↔ ("region", e) ∈ block.body.attributes := by
  refine ⟨?_, ?_, ?_, ?_⟩
  · intro provider region
    exact get?_providerRegions_eq_some_iff
  · intro block
    refine ⟨Block.isSilent_iff, ?_⟩
    intro hsilent
    exact providerRegions_without hsilent
  · intro r hr
    obtain ⟨_, _, _, _, hblock⟩ := mem_resourcesOf_iff.mp hr
    refine ⟨(Resource.ofBlock?_eq_some_iff_isOf.mp hblock).provider, ?_⟩
    intro region
    rw [Resource.takes_iff, region_of_mem_resourcesOf hr]
  · intro directory overrides loaded h
    obtain ⟨bodies, hbodies, rfl⟩ := load_eq_ok_iff.mp h
    refine ⟨bodies, hbodies, ?_, ?_⟩
    · have hkeep : Resource.substitute [] = id := funext Resource.substitute_nil
      have hresources := resources_assemble bodies (directory.environment overrides bodies) none
      simpa [answered, hkeep] using hresources
    · intro body hbody block hblock e
      have hdistinct := Directory.distinct_of_mem_bodies hbodies hbody
      exact (hdistinct.of_mem hblock).attribute?_eq_some_iff

/-- Resources in one file and the regions of their provider in the next one, the first of them open. -/
def providersDirectory : Directory where
  path := ⟨"infra"⟩
  listing := .ok [
    (⟨"infra/a.tf"⟩, .ok (String.intercalate "\n" [
      "resource \"aws_instance\" \"web\" \x7b\x7d",
      "resource \"aws_disk\" \"own\" \x7b",
      "  region = \"us\"",
      "\x7d",
      "resource \"gcp_disk\" \"none\" \x7b\x7d",
      ""])),
    (⟨"infra/b.tf"⟩, .ok (String.intercalate "\n" [
      "provider \"aws\" \x7b\x7d",
      "provider \"aws\" \x7b",
      "  region = var.region",
      "\x7d",
      "provider \"aws\" \x7b",
      "  region = \"eu\"",
      "\x7d",
      "provider \"aws\" \x7b",
      "  region = \"ap\"",
      "\x7d",
      ""]))]

theorem later_file_settles_region :
    ∃ loaded bodies, load providersDirectory [] none = .ok loaded ∧
      providersDirectory.bodies = .ok bodies ∧
      loaded.inventory.resources.map (fun r => (r.provider, r.region)) =
        [("aws", "eu"), ("aws", "us"), ("gcp", "")] ∧
      let env := providersDirectory.environment [] bodies
      IsRecorded bodies env "aws" "eu" ∧
        ∀ r ∈ loaded.inventory.resources, r.Takes bodies env r.region := by
  have hseen : (load providersDirectory [] none).toOption.map
      (fun loaded => loaded.inventory.resources.map fun r => (r.provider, r.region)) =
        some [("aws", "eu"), ("aws", "us"), ("gcp", "")] := by
    decide +kernel
  have hparsed : providersDirectory.bodies.toOption.any (fun bodies =>
      (providerRegions bodies (providersDirectory.environment [] bodies)).get? "aws" = some "eu") =
        true := by
    decide +kernel
  obtain ⟨loaded, hload, hregions⟩ := exists_loaded hseen
  obtain ⟨bodies, hbodies, hview⟩ := Directory.exists_bodies hparsed
  have hdiscovered := regions_discovered bodies (providersDirectory.environment [] bodies)
  obtain ⟨hrecorded, _, htakes, hloaded⟩ := hdiscovered
  obtain ⟨parsed, hparsed, hresources, _⟩ := hloaded providersDirectory [] loaded hload
  cases hbodies.symm.trans hparsed
  refine ⟨loaded, bodies, hload, hbodies, hregions, (hrecorded _ _).mp (of_decide_eq_true hview), ?_⟩
  intro r hr
  rw [hresources] at hr
  exact ((htakes r hr).2 _).mpr rfl

end TemplateCost
