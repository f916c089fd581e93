import TemplateCost.Proofs.Cost.Run
import TemplateCost.Proofs.Loading.Region
import TemplateCost.Proofs.Template.Open

/-! # Locations that prices are asked for

The region of a resource never holds the mark of an interpolation: what is open in its own attribute
falls back to the region of its provider, and what is open there settles nothing. A zone has to be a
text that is not empty, and no more is asked of it. So a zone that is an unbound reference falls back
to the region, and one that is a text around the same reference is asked for with the mark in it.
-/
namespace TemplateCost
open Template

namespace Resource

/-- The zone that a resource of the provider with prices by zone names. -/
def namedZone? (r : Resource) : Option String :=
  if r.provider = zonePricedProvider then (r.text? "availability_zone").filter (· ≠ "") else none

theorem location_eq_getD (r : Resource) : r.location = r.namedZone?.getD r.region := by
  rw [location, namedZone?]
  split
  · cases r.text? "availability_zone" with
    | none => rfl
    | some zone => by_cases hzone : zone = "" <;> simp [Option.filter_some, hzone]
  · rfl

theorem question_eq_ok_iff {r : Resource} {q : PriceQuestion} :
    r.question = .ok q ↔ ∃ key, r.pricingKey = .ok key ∧ q = ⟨r.provider, r.location, key⟩ := by
  rw [question]
  cases r.pricingKey with
  | error reason => simp [Except.map]
  | ok key => simp [Except.map, eq_comm]

/-- A resource without a marked region is asked for at a marked location iff the zone that it names is
marked. -/
theorem isMarked_location_iff {r : Resource} (h : ¬ Text.IsMarked r.region) :
    Text.IsMarked r.location ↔ ∃ zone, r.namedZone? = some zone ∧ Text.IsMarked zone := by
  rw [location_eq_getD]
  cases r.namedZone? <;> simp [h]

end Resource

theorem Estimate.mem_questions_iff {resources : List Resource} {q : PriceQuestion} :
    q ∈ questions resources ↔ ∃ r ∈ resources, r.question = .ok q := by
  have htoOption : ∀ r : Resource, r.question.toOption = some q ↔ r.question = .ok q := by
    intro r
    cases r.question <;> simp [Except.toOption]
  simp [questions, htoOption]

/-- Where no region is marked, no location that is asked for is marked iff no zone is that a resource
with a key names. -/
theorem Estimate.questions_not_isMarked_iff {resources : List Resource}
    (h : ∀ r ∈ resources, ¬ Text.IsMarked r.region) :
    (∀ q ∈ questions resources, ¬ Text.IsMarked q.location) ↔
      ∀ r ∈ resources, (∃ key, r.pricingKey = .ok key) →
        ∀ zone, r.namedZone? = some zone → ¬ Text.IsMarked zone := by
  constructor
  · rintro hasked r hr ⟨key, hkey⟩ zone hzone hmarked
    have hquestion := Resource.question_eq_ok_iff.mpr ⟨key, hkey, rfl⟩
    have hplain := hasked _ (mem_questions_iff.mpr ⟨r, hr, hquestion⟩)
    exact hplain ((Resource.isMarked_location_iff (h r hr)).mpr ⟨zone, hzone, hmarked⟩)
  · intro hzones q hq hmarked
    obtain ⟨r, hr, hquestion⟩ := mem_questions_iff.mp hq
    obtain ⟨key, hkey, rfl⟩ := Resource.question_eq_ok_iff.mp hquestion
    obtain ⟨zone, hzone, hzoneMarked⟩ := (Resource.isMarked_location_iff (h r hr)).mp hmarked
    exact hzones r hr ⟨key, hkey⟩ zone hzone hzoneMarked

/-! ## Regions -/

theorem providerRegions_not_isMarked {bodies : List Body} {env : Environment}
    {provider region : String} (h : (providerRegions bodies env).get? provider = some region) :
    ¬ Text.IsMarked region := by
  rw [providerRegions, Entries.get?_ofList, List.reverse_reverse] at h
  obtain ⟨block, _, hblock⟩ := List.mem_filterMap.mp (Entries.mem_of_get? h)
  simp only [providerRegion?, Option.bind_eq_bind, Option.bind_eq_some_iff] at hblock
  obtain ⟨_, _, _, _, v, _, text, htext, hsame⟩ := hblock
  cases hsame
  exact (Value.plainText?_eq_some_iff.mp htext).2.2

theorem Resource.ownRegion?_not_isMarked {attributes : Entries Value} {region : String}
    (h : ownRegion? attributes = some region) : ¬ Text.IsMarked region := by
  obtain ⟨v, _, hplain⟩ := Option.bind_eq_some_iff.mp h
  exact (Value.plainText?_eq_some_iff.mp hplain).2.2

theorem region_not_isMarked {bodies : List Body} {env : Environment} {r : Resource}
    (h : r ∈ resourcesOf bodies env) : ¬ Text.IsMarked r.region := by
  rw [region_of_mem_resourcesOf h]
  cases hown : Resource.ownRegion? r.attributes with
  | some region =>
    rw [Option.some_or, Option.getD_some]
    exact Resource.ownRegion?_not_isMarked hown
  | none =>
    rw [Option.none_or]
    cases hrecorded : (providerRegions bodies env).get? r.provider with
    | some region => exact providerRegions_not_isMarked hrecorded
    | none => exact Text.not_isMarked_empty

namespace Resource
variable {env : Environment} {regions : Entries String} {block : Block} {r : Resource}

/-- An open region is left to the provider. -/
theorem ownRegion?_of_isOpen (h : ofBlock? env regions block = some r)
    (hopen : ∀ e, ("region", e) ∈ block.body.attributes → e.IsOpen env) :
    ownRegion? r.attributes = none := by
  obtain ⟨_, _, _, hattributes, _⟩ := ofBlock?_eq_some_iff.mp h
  rw [ownRegion?, hattributes]
  cases hget : (block.body.values env).get? "region" with
  | none => rfl
  | some v =>
    rcases Body.get?_values_of_isOpen hopen hget with ⟨inner, rfl⟩ | hunresolved
    · rfl
    · exact hunresolved.plainText?_eq_none

theorem region_of_isOpen (h : ofBlock? env regions block = some r)
    (hopen : ∀ e, ("region", e) ∈ block.body.attributes → e.IsOpen env) :
    r.region = (regions.get? r.provider).getD "" := by
  obtain ⟨_, _, _, _, _, hregion⟩ := ofBlock?_eq_some_iff.mp h
  rw [hregion, ownRegion?_of_isOpen h hopen, Option.none_or]

/-- An open zone that is named all the same is marked. -/
theorem isMarked_of_namedZone? (h : ofBlock? env regions block = some r)
    (hopen : ∀ e, ("availability_zone", e) ∈ block.body.attributes → e.IsOpen env) {zone : String}
    (hzone : r.namedZone? = some zone) : Text.IsMarked zone := by
  obtain ⟨_, _, _, hattributes, _⟩ := ofBlock?_eq_some_iff.mp h
  rw [namedZone?] at hzone
  split at hzone
  · obtain ⟨htext, _⟩ := Option.filter_eq_some_iff.mp hzone
    rw [text?, hattributes] at htext
    exact Body.isMarked_of_isOpen hopen htext
  · cases hzone

theorem location_of_isOpen (h : ofBlock? env regions block = some r)
    (hopen : ∀ e, ("availability_zone", e) ∈ block.body.attributes → e.IsOpen env) :
    r.location = r.region ∨ r.namedZone? = some r.location ∧ Text.IsMarked r.location := by
  rw [location_eq_getD]
  cases hzone : r.namedZone? with
  | none => exact Or.inl rfl
  | some zone => exact Or.inr ⟨rfl, isMarked_of_namedZone? h hopen hzone⟩

/-- A zone that is an unbound reference is left to the region. -/
theorem namedZone?_of_unbound (h : ofBlock? env regions block = some r)
    (hunbound : ∀ e, ("availability_zone", e) ∈ block.body.attributes →
      ∃ path, e.reference? = some path ∧ env.get? (bareName path) = none) :
    r.namedZone? = none := by
  obtain ⟨_, _, _, hattributes, _⟩ := ofBlock?_eq_some_iff.mp h
  have hnone : r.text? "availability_zone" = none := by
    rw [text?, hattributes]
    cases hget : (block.body.values env).get? "availability_zone" with
    | none => rfl
    | some v =>
      rcases Body.get?_values_cases hget with ⟨inner, rfl⟩ | ⟨e, hmem, he⟩
      · rfl
      · obtain ⟨path, hpath, hfree⟩ := hunbound e hmem
        obtain rfl := Except.ok.inj ((Expr.eval_unbound hpath hfree).symm.trans he)
        rfl
  rw [namedZone?, hnone]
  split <;> rfl

end Resource

/-- The locations that an estimate of a loaded template asks for. A region is never marked, and an open
one falls back to the region of the provider; an open zone falls back to the region or is a marked text,
and as an unbound reference it falls back. The questions hold a mark iff a resource that is asked for
names a zone with one. -/
theorem load_locations {directory : Directory} {overrides : Entries String} {loaded : Loaded}
    (h : load directory overrides none = .ok loaded) :
    ∃ bodies, directory.bodies = .ok bodies ∧
      let env := directory.environment overrides bodies
      let regions := providerRegions bodies env
      (∀ r ∈ loaded.inventory.resources,
        r.region = ((Resource.ownRegion? r.attributes).or (regions.get? r.provider)).getD "" ∧
        ¬ Text.IsMarked r.region ∧ r.location = r.namedZone?.getD r.region) ∧
      (∀ block r, Resource.IsFrom bodies env none block r →
        ((∀ e, ("region", e) ∈ block.body.attributes → e.IsOpen env) →
          r.region = (regions.get? r.provider).getD "") ∧
        ((∀ e, ("availability_zone", e) ∈ block.body.attributes → e.IsOpen env) →
          r.location = r.region ∨ r.namedZone? = some r.location ∧ Text.IsMarked r.location) ∧
        ((∀ e, ("availability_zone", e) ∈ block.body.attributes →
            ∃ path, e.reference? = some path ∧ env.get? (bareName path) = none) →
          r.location = r.region)) ∧
      ∀ (source : PriceSource) (timestamp : String),
        let asked := ((Estimate.calculateAsking source timestamp loaded.inventory.resources).after []).2
        (∀ q ∈ asked, ¬ Text.IsMarked q.location) ↔
          ∀ r ∈ loaded.inventory.resources, (∃ key, r.pricingKey = .ok key) →
            ∀ zone, r.namedZone? = some zone → ¬ Text.IsMarked zone := by
  obtain ⟨bodies, hbodies, rfl⟩ := load_eq_ok_iff.mp h
  have hresources :
      (assemble bodies (directory.environment overrides bodies) none).inventory.resources =
        resourcesOf bodies (directory.environment overrides bodies) := rfl
  refine ⟨bodies, hbodies, ?_, ?_, ?_⟩
  · intro r hr
    rw [hresources] at hr
    exact ⟨region_of_mem_resourcesOf hr, region_not_isMarked hr, r.location_eq_getD⟩
  · rintro block _ ⟨_, s, hof, rfl⟩
    have hsame : s.substitute (answered none bodies (directory.environment overrides bodies)) = s :=
      s.substitute_nil
    rw [hsame]
    refine ⟨Resource.region_of_isOpen hof, Resource.location_of_isOpen hof, ?_⟩
    intro hunbound
    rw [s.location_eq_getD, Resource.namedZone?_of_unbound hof hunbound, Option.getD_none]
  · intro source timestamp
    rw [Estimate.after_calculateAsking, List.nil_append, hresources]
    exact Estimate.questions_not_isMarked_iff fun r hr => region_not_isMarked hr

/-- A directory with one instance where zones have prices; the instance has this expression for its zone,
and its provider has a region. -/
def zonedDirectory (zone : String) : Directory :=
  .ofLines [
    "provider \"tencentcloud\" \x7b",
    "  region = \"ap-guangzhou\"",
    "\x7d",
    "resource \"tencentcloud_instance\" \"web\" \x7b",
    "  instance_type = \"S5.MEDIUM2\"",
    "  availability_zone = " ++ zone,
    "\x7d"]

theorem open_zone_falls_back :
    ∃ loaded, load (zonedDirectory "var.zone") [] none = .ok loaded ∧
      Estimate.questions loaded.inventory.resources =
        [⟨"tencentcloud", "ap-guangzhou", "S5.MEDIUM2"⟩] ∧
      ∀ r ∈ loaded.inventory.resources, ¬ Text.IsMarked r.region ∧ r.location = r.region := by
  have hseen : (load (zonedDirectory "var.zone") [] none).toOption.map (fun loaded =>
      (Estimate.questions loaded.inventory.resources,
        loaded.inventory.resources.map Resource.namedZone?)) =
      some ([⟨"tencentcloud", "ap-guangzhou", "S5.MEDIUM2"⟩], [none]) := by
    decide +kernel
  obtain ⟨loaded, hload, hview⟩ := exists_loaded hseen
  obtain ⟨hasked, hzones⟩ := Prod.mk.inj hview
  obtain ⟨_, _, hregions, _⟩ := load_locations hload
  refine ⟨loaded, hload, hasked, ?_⟩
  intro r hr
  obtain ⟨_, hplain, hlocation⟩ := hregions r hr
  have hzone : r.namedZone? ∈ [none] := hzones ▸ List.mem_map_of_mem hr
  rw [List.mem_singleton.mp hzone, Option.getD_none] at hlocation
  exact ⟨hplain, hlocation⟩

/-- A text around an unbound reference is asked for as a zone. -/
theorem open_zone_asked_for :
    ¬ ∀ (directory : Directory) (overrides : Entries String) (loaded : Loaded),
      load directory overrides none = .ok loaded → ∀ (source : PriceSource) (timestamp : String),
        ∀ q ∈ ((Estimate.calculateAsking source timestamp loaded.inventory.resources).after []).2,
          ¬ Text.IsMarked q.location := by
  intro hplain
  let directory := zonedDirectory "\"$\x7bvar.zone\x7d\""
  have hseen : (load directory [] none).toOption.map (fun loaded =>
      Estimate.questions loaded.inventory.resources) =
      some [⟨"tencentcloud", "$\x7bvar.zone\x7d", "S5.MEDIUM2"⟩] := by
    decide +kernel
  obtain ⟨loaded, hload, hasked⟩ := exists_loaded hseen
  have hnone := hplain directory [] loaded hload (fun q => .error (.notFound q)) ""
  rw [Estimate.after_calculateAsking, hasked] at hnone
  exact hnone _ (List.mem_singleton_self _) (by decide +kernel)

end TemplateCost
