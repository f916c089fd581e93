import TemplateCost.Proofs.Loading.Assembly
import TemplateCost.Proofs.Substitution.Nesting
import TemplateCost.Proofs.Substitution.Splice

/-! # Regions after substitution

The region of a resource is settled before data is put into its attributes. Plain text is never
changed, so a resource that named its region itself keeps agreeing with its attributes. One whose
region was left to data disagrees afterwards, unless its provider has the same region.
-/
namespace TemplateCost
open Template Substitution

namespace Resource

/-- The region is the one that the attributes name, if they name one in plain text. -/
def RegionAgrees (r : Resource) : Prop :=
  ∀ region, ownRegion? r.attributes = some region → r.region = region

instance (r : Resource) : Decidable r.RegionAgrees :=
  decidable_of_iff ((ownRegion? r.attributes).all fun region => r.region = region) (by
    cases h : ownRegion? r.attributes <;> simp [RegionAgrees, h])

end Resource

theorem Value.plainText?_eq_some_iff {v : Value} {text : String} :
    v.plainText? = some text ↔ v = .string text ∧ text ≠ "" ∧ ¬ ['$', '{'] <:+: text.toList := by
  cases v with
  | string other =>
    have hmark : (!Text.contains ['$', '{'] other.toList) = true ↔ ¬ ['$', '{'] <:+: other.toList := by
      rw [Bool.not_eq_true', ← Bool.not_eq_true, Text.contains_iff_isInfix]
    rw [plainText?]
    constructor
    · intro h
      split at h
      · rename_i hplain
        cases h
        exact ⟨rfl, hplain.1, hmark.mp hplain.2⟩
      · cases h
    · rintro ⟨h, hne, hplain⟩
      cases h
      rw [if_pos ⟨hne, hmark.mpr hplain⟩]
  | _ => simp [plainText?]

/-- The mark of a token begins with the mark of any reference. -/
theorem isFree_of_plain {text : List Char} (h : ¬ ['$', '{'] <:+: text) : IsFree text := by
  intro hmark
  have hbegins : ['$', '{'] <+: referenceMark := ⟨"data.".toList, rfl⟩
  exact h (hbegins.isInfix.trans hmark)

theorem replace_of_plainText? (resolved : Entries Value) {v : Value} {text : String}
    (h : v.plainText? = some text) : replace resolved v = v := by
  obtain ⟨rfl, _, hplain⟩ := Value.plainText?_eq_some_iff.mp h
  rw [replace, replaceText_of_isFree resolved (isFree_of_plain hplain)]

namespace Resource
variable {resolved : Entries Value} {regions : Entries String} {r : Resource} {region : String}

theorem ownRegion?_ne_empty {attributes : Entries Value}
    (h : ownRegion? attributes = some region) : region ≠ "" := by
  obtain ⟨v, _, hplain⟩ := Option.bind_eq_some_iff.mp h
  exact (Value.plainText?_eq_some_iff.mp hplain).2.1

/-- Substitution keeps a region that is named already. -/
theorem ownRegion?_substitute (h : ownRegion? r.attributes = some region) :
    ownRegion? (r.substitute resolved).attributes = some region := by
  obtain ⟨v, hget, hplain⟩ := Option.bind_eq_some_iff.mp h
  have hkept : (r.substitute resolved).attributes.get? "region" = some v := by
    rw [substitute, replaceEntries_eq_mapValues, Entries.get?_mapValues, hget, Option.map_some,
      replace_of_plainText? resolved hplain]
  rw [ownRegion?, hkept]
  exact hplain

/-- A resource with its region settled agrees after substitution iff the region that its attributes
name was named before, or is the recorded one. -/
theorem regionAgrees_substitute_iff
    (hsettled : r.region = ((ownRegion? r.attributes).or (regions.get? r.provider)).getD "") :
    (r.substitute resolved).RegionAgrees ↔
      ∀ region, ownRegion? (r.substitute resolved).attributes = some region →
        ownRegion? r.attributes = some region ∨ regions.get? r.provider = some region := by
  refine forall₂_congr fun region hfinal => ?_
  have hsame : (r.substitute resolved).region = r.region := rfl
  rw [hsame, hsettled]
  cases hown : ownRegion? r.attributes with
  | some named =>
    have hkept : ownRegion? (r.substitute resolved).attributes = some named :=
      ownRegion?_substitute hown
    have hregion : named = region := Option.some.inj (hkept.symm.trans hfinal)
    simp [hregion]
  | none =>
    have hne := ownRegion?_ne_empty hfinal
    cases hrecorded : regions.get? r.provider with
    | none => simp [hne.symm]
    | some recorded => simp

end Resource

/-! ## Loaded resources -/

theorem region_of_mem_resourcesOf {bodies : List Body} {env : Environment} {r : Resource}
    (h : r ∈ resourcesOf bodies env) :
    r.region =
      ((Resource.ownRegion? r.attributes).or ((providerRegions bodies env).get? r.provider)).getD "" := by
  obtain ⟨_, _, _, _, hblock⟩ := mem_resourcesOf_iff.mp h
  exact (Resource.ofBlock?_eq_some_iff.mp hblock).2.2.2.2.2

/-- A loaded resource agrees with its attributes iff the region that they name was named before
substitution or is the recorded one of its provider; where nothing is asked, every resource agrees. -/
theorem load_regionAgrees {directory : Directory} {overrides : Entries String}
    {sources : Option DataSources} {loaded : Loaded}
    (h : load directory overrides sources = .ok loaded) :
    ∃ bodies, directory.bodies = .ok bodies ∧
      let env := directory.environment overrides bodies
      let resolved := answered sources bodies env
      loaded.inventory.resources = (resourcesOf bodies env).map (Resource.substitute resolved) ∧
      (∀ r ∈ resourcesOf bodies env, (r.substitute resolved).RegionAgrees ↔
        ∀ region, Resource.ownRegion? (r.substitute resolved).attributes = some region →
          Resource.ownRegion? r.attributes = some region ∨
            (providerRegions bodies env).get? r.provider = some region) ∧
      (sources = none → ∀ r ∈ loaded.inventory.resources, r.RegionAgrees) := by
  obtain ⟨bodies, hbodies, rfl⟩ := load_eq_ok_iff.mp h
  have hresources := resources_assemble bodies (directory.environment overrides bodies) sources
  refine ⟨bodies, hbodies, hresources, ?_, ?_⟩
  · intro r hr
    exact Resource.regionAgrees_substitute_iff (region_of_mem_resourcesOf hr)
  · rintro rfl r hr
    rw [hresources] at hr
    obtain ⟨s, hs, rfl⟩ := List.mem_map.mp hr
    refine (Resource.regionAgrees_substitute_iff (region_of_mem_resourcesOf hs)).mpr ?_
    intro region hfinal
    have hsame : s.substitute (answered none bodies (directory.environment overrides bodies)) = s :=
      s.substitute_nil
    rw [hsame] at hfinal
    exact Or.inl hfinal

/-- A directory with one instance, which has this expression for its region. -/
def instanceDirectory (region : String) : Directory where
  path := ⟨"infra"⟩
  listing := .ok [(⟨"infra/main.tf"⟩, .ok (String.intercalate "\n" [
    "data \"aws_region\" \"current\" \x7b\x7d",
    "resource \"aws_instance\" \"web\" \x7b",
    "  region = " ++ region,
    "\x7d",
    ""]))]

/-- A source that knows which region is the current one. -/
def currentRegion : DataSources where
  credentials _ := some ⟨"key", "secret", "us-east-1"⟩
  answer _ := some (.map [("name", .string "eu-west-1")])

theorem named_region_agrees :
    ∃ loaded, load (instanceDirectory "\"eu-west-1\"") [] none = .ok loaded ∧
      loaded.inventory.resources.map Resource.region = ["eu-west-1"] ∧
      ∀ r ∈ loaded.inventory.resources, r.RegionAgrees := by
  have hregions : (load (instanceDirectory "\"eu-west-1\"") [] none).toOption.map
      (fun loaded => loaded.inventory.resources.map Resource.region) = some ["eu-west-1"] := by
    decide +kernel
  cases hload : load (instanceDirectory "\"eu-west-1\"") [] none with
  | error e =>
    rw [hload] at hregions
    cases hregions
  | ok loaded =>
    rw [hload] at hregions
    obtain ⟨_, _, _, _, hagrees⟩ := load_regionAgrees hload
    exact ⟨loaded, rfl, Option.some.inj hregions, hagrees rfl⟩

/-- The region of an instance can be left to data, and then nothing settles it. -/
theorem region_left_to_data_disagrees :
    ¬ ∀ (directory : Directory) (overrides : Entries String) (sources : Option DataSources)
      (loaded : Loaded), load directory overrides sources = .ok loaded →
        ∀ r ∈ loaded.inventory.resources, r.RegionAgrees := by
  intro hagrees
  let directory := instanceDirectory "data.aws_region.current.name"
  have hdisagrees : (load directory [] (some currentRegion)).toOption.any
      (fun loaded => loaded.inventory.resources.any fun r => !decide r.RegionAgrees) = true := by
    decide +kernel
  cases hload : load directory [] (some currentRegion) with
  | error e =>
    rw [hload] at hdisagrees
    cases hdisagrees
  | ok loaded =>
    rw [hload] at hdisagrees
    obtain ⟨r, hr, hnot⟩ := List.any_eq_true.mp hdisagrees
    have hdecided : r.RegionAgrees := hagrees directory [] (some currentRegion) loaded hload r hr
    simp [hdecided] at hnot

end TemplateCost
