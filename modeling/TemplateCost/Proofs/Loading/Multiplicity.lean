import TemplateCost.Proofs.Decimal.Integer
import TemplateCost.Proofs.Loading.Assembly
import TemplateCost.Proofs.Substitution.Nesting
import TemplateCost.Proofs.Substitution.Splice

/-! # Counts after substitution

The number of instances is settled before data is put into the attributes. A `count` that is known is a
number or the text of one, which substitution does not change, so it keeps agreeing with the attribute.
A collection keeps its size. A `for_each` that was left to data is counted as one instance, and it
disagrees with its attribute afterwards unless one entry is what the data gives.
-/
namespace TemplateCost
open Template Entries Substitution

/-- One attribute of this name and no nested block of this kind. -/
def Template.Body.HasOne (name : String) (body : Body) : Prop :=
  (body.attributes.map Prod.fst).count name = 1 ∧ name ∉ body.blocks.map Block.kind

instance (name : String) (body : Body) : Decidable (body.HasOne name) :=
  inferInstanceAs (Decidable (_ ∧ _))

def Value.isCollection : Value → Bool
  | .list _ => true
  | .map _ => true
  | _ => false

namespace Resource

/-- Where the block has one `for_each`, the resource stands for as many instances as its attribute
has entries. -/
def ForEachAgrees (block : Block) (r : Resource) : Prop :=
  block.body.HasOne "for_each" →
    (r.attributes.get? "for_each").map Multiplicity.ofForEach = some r.count

/-- Where the block has one `count` and no `for_each`, the resource stands for as many instances as its
attribute says. -/
def CountAgrees (block : Block) (r : Resource) : Prop :=
  block.body.attribute? "for_each" = none → block.body.HasOne "count" →
    (r.attributes.get? "count").bind Multiplicity.ofCount? = some r.count

instance (block : Block) (r : Resource) : Decidable (r.ForEachAgrees block) :=
  inferInstanceAs (Decidable (_ → _))

end Resource

/-! ## The only attribute of a name -/

namespace Template

theorem get?_evaluated_eq_none {env : Environment} {attributes : List (String × Expr)} {name : String}
    (h : ∀ entry ∈ attributes, entry.1 ≠ name) : get? name (evaluated env attributes) = none := by
  refine get?_eq_none_iff.mpr ?_
  intro entry he
  obtain ⟨e, hmem, _⟩ := mem_evaluated_iff.mp he
  exact h _ hmem

theorem exists_split_of_count_eq_one {attributes : List (String × Expr)} {name : String}
    (h : (attributes.map Prod.fst).count name = 1) :
    ∃ before e after, attributes = before ++ (name, e) :: after ∧
      (∀ entry ∈ before, entry.1 ≠ name) ∧ ∀ entry ∈ after, entry.1 ≠ name := by
  have hmem : name ∈ attributes.map Prod.fst := by
    rw [← List.count_pos_iff, h]
    exact Nat.one_pos
  obtain ⟨⟨_, e⟩, hentry, rfl⟩ := List.mem_map.mp hmem
  obtain ⟨before, after, rfl⟩ := List.append_of_mem hentry
  rename_i name
  change ((before ++ (name, e) :: after).map Prod.fst).count name = 1 at h
  rw [List.map_append, List.map_cons, List.count_append, List.count_cons_self] at h
  have hbefore : name ∉ before.map Prod.fst := List.count_eq_zero.mp (by omega)
  have hafter : name ∉ after.map Prod.fst := List.count_eq_zero.mp (by omega)
  refine ⟨before, e, after, rfl, ?_, ?_⟩
  · intro entry he heq
    exact hbefore (List.mem_map.mpr ⟨entry, he, heq⟩)
  · intro entry he heq
    exact hafter (List.mem_map.mpr ⟨entry, he, heq⟩)

/-- The only attribute of a name is the one that is looked for, and its value stands under the name. -/
theorem Body.HasOne.exists_attribute {body : Body} {name : String} (h : body.HasOne name) :
    ∃ e, body.attribute? name = some e ∧ ∀ env, Body.Holds env body [.key name] e := by
  obtain ⟨attributes, blocks⟩ := body
  obtain ⟨hcount, hblocks⟩ := h
  obtain ⟨before, e, after, rfl, hbefore, hafter⟩ := exists_split_of_count_eq_one hcount
  refine ⟨e, ?_, ?_⟩
  · have hfound : (before ++ (name, e) :: after).find? (fun entry => entry.1 = name) =
        some (name, e) := by
      rw [List.find?_append, List.find?_eq_none.mpr (by simpa using hbefore), Option.none_or,
        List.find?_cons_of_pos (by simp)]
    exact congrArg (Option.map Prod.snd) hfound
  · intro env
    -- an attribute after it or a nested block would take its place
    refine .own (get?_evaluated_eq_none hafter) (get?_eq_none_iff.mpr ?_) (.here e)
    intro entry he heq
    exact hblocks (heq ▸ (Block.of_mem_entries he).1)

end Template

namespace Multiplicity
variable {ε : Type}

theorem instances?_forEach_iff {count : Option (Except ε Value)} {result : Except ε Value}
    {n : Int64} :
    instances? count (some result) = some n ↔ ∃ v, result = .ok v ∧ ofForEach v = n := by
  cases result <;> simp [instances?]

theorem instances?_count_iff {result : Except ε Value} {n : Int64} :
    instances? (some result) none = some n ↔ ∃ v, result = .ok v ∧ ofCount? v = some n := by
  cases result <;> simp [instances?]

end Multiplicity

/-! ## Values that substitution keeps -/

/-- Text that is read as an integer holds no mark of a reference. -/
theorem isFree_of_ofCount? {text : String} {n : Int64}
    (h : Multiplicity.ofCount? (.string text) = some n) : IsFree text.toList := by
  intro hmark
  have hdollar : '$' ∈ text.toList := hmark.subset (by decide)
  have htrim : '$' ∈ Text.trim text.toList := Text.mem_trim (by decide) hdollar
  rcases Decimal.isDigit_or_sign_of_readInt64? h '$' htrim with h | h | h
  · exact absurd h (by decide)
  · exact absurd h (by decide)
  · exact absurd h (by decide)

theorem replace_of_ofCount? (resolved : Entries Value) {v : Value} {n : Int64}
    (h : Multiplicity.ofCount? v = some n) : replace resolved v = v := by
  cases v with
  | number x => rw [replace]
  | string text => rw [replace, replaceText_of_isFree resolved (isFree_of_ofCount? h)]
  | _ => cases h

theorem length_replaceItems (resolved : Entries Value) (items : List Value) :
    (replaceItems resolved items).length = items.length := by
  rw [replaceItems_eq_map, List.length_map]

theorem length_replaceEntries (resolved : Entries Value) (entries : Entries Value) :
    (replaceEntries resolved entries).length = entries.length := by
  rw [replaceEntries_eq_mapValues, mapValues, List.length_map]

/-- A collection keeps its size, and anything else was counted as one. -/
theorem ofForEach_replace_iff (resolved : Entries Value) (v : Value) :
    Multiplicity.ofForEach (replace resolved v) = Multiplicity.ofForEach v ↔
      v.isCollection = true ∨ Multiplicity.ofForEach (replace resolved v) = 1 := by
  cases v with
  | list items =>
    refine iff_of_true ?_ (Or.inl rfl)
    rw [replace, Multiplicity.ofForEach, Multiplicity.ofForEach, length_replaceItems]
  | map entries =>
    refine iff_of_true ?_ (Or.inl rfl)
    rw [replace, Multiplicity.ofForEach, Multiplicity.ofForEach, length_replaceEntries]
  | _ => simp [Multiplicity.ofForEach, Value.isCollection]

/-! ## Loaded resources -/

namespace Resource.IsFrom
variable {bodies : List Body} {env : Environment} {sources : Option DataSources} {block : Block}
  {r : Resource}

theorem get?_attributes (h : IsFrom bodies env sources block r) {name : String} {e : Expr} {v : Value}
    (hholds : Body.Holds env block.body [.key name] e) (he : e.eval env = .ok v) :
    r.attributes.get? name = some (replace (answered sources bodies env) v) := by
  have hat := hholds.value_at he
  rw [Value.at?_map_key] at hat
  obtain ⟨u, hget, hu⟩ := Option.bind_eq_some_iff.mp hat
  rw [Value.at?_nil] at hu
  rw [h.attributes_eq, replaceEntries_eq_mapValues, get?_mapValues, hget, Option.map_some,
    Option.some.inj hu]

theorem countAgrees (h : IsFrom bodies env sources block r) : r.CountAgrees block := by
  intro hforEach hone
  obtain ⟨e, he, hholds⟩ := hone.exists_attribute
  have hinstances := h.instances?_eq
  rw [Block.instances?, hforEach, he, Option.map_some, Option.map_none] at hinstances
  obtain ⟨v, hv, hcount⟩ := Multiplicity.instances?_count_iff.mp hinstances
  rw [h.get?_attributes (hholds env) hv, Option.bind_some, replace_of_ofCount? _ hcount, hcount]

/-- The count is that of the value before data is put in. -/
theorem exists_forEach (h : IsFrom bodies env sources block r) (hone : block.body.HasOne "for_each") :
    ∃ e v, block.body.attribute? "for_each" = some e ∧ e.eval env = .ok v ∧
      r.attributes.get? "for_each" = some (replace (answered sources bodies env) v) ∧
      r.count = Multiplicity.ofForEach v := by
  obtain ⟨e, he, hholds⟩ := hone.exists_attribute
  have hinstances := h.instances?_eq
  rw [Block.instances?, he, Option.map_some] at hinstances
  obtain ⟨v, hv, hcount⟩ := Multiplicity.instances?_forEach_iff.mp hinstances
  exact ⟨e, v, he, hv, h.get?_attributes (hholds env) hv, hcount.symm⟩

end Resource.IsFrom

/-- The count of a loaded resource agrees with its `count` always, and with its `for_each` iff that was a
collection before data was put in or counts as one afterwards; so it agrees where nothing is asked. -/
theorem load_countAgrees {directory : Directory} {overrides : Entries String}
    {sources : Option DataSources} {loaded : Loaded}
    (h : load directory overrides sources = .ok loaded) :
    ∃ bodies, directory.bodies = .ok bodies ∧
      let env := directory.environment overrides bodies
      (∀ r, r ∈ loaded.inventory.resources ↔
        ∃ block, Resource.IsFrom bodies env sources block r) ∧
      ∀ block r, Resource.IsFrom bodies env sources block r →
        r.CountAgrees block ∧
        (block.body.HasOne "for_each" → ∃ e v, block.body.attribute? "for_each" = some e ∧
          e.eval env = .ok v ∧ r.count = Multiplicity.ofForEach v ∧
          (r.ForEachAgrees block ↔ v.isCollection = true ∨
            Multiplicity.ofForEach (replace (answered sources bodies env) v) = 1)) ∧
        (sources = none → r.ForEachAgrees block) := by
  obtain ⟨bodies, hbodies, rfl⟩ := load_eq_ok_iff.mp h
  refine ⟨bodies, hbodies, fun r => mem_resources_iff, ?_⟩
  intro block r hfrom
  refine ⟨hfrom.countAgrees, ?_, ?_⟩
  · intro hone
    obtain ⟨e, v, he, hv, hget, hcount⟩ := hfrom.exists_forEach hone
    refine ⟨e, v, he, hv, hcount, ?_⟩
    rw [← ofForEach_replace_iff, Resource.ForEachAgrees, hget, hcount, Option.map_some,
      Option.some.injEq]
    exact ⟨fun hagrees => hagrees hone, fun hsame _ => hsame⟩
  · rintro rfl hone
    obtain ⟨e, v, he, hv, hget, hcount⟩ := hfrom.exists_forEach hone
    have hkept : replace [] v = v :=
      replace_of_nothingKnown v fun text _ => NothingKnown.of_nil text.toList
    have hsame : r.attributes.get? "for_each" = some v := hget.trans (congrArg some hkept)
    rw [hsame, hcount, Option.map_some]

/-- An instance for each entry of this expression, and a disk counted by text. -/
def zonesDirectory (forEach : String) : Directory :=
  .ofLines [
    "data \"aws_zones\" \"all\" \x7b\x7d",
    "resource \"aws_instance\" \"web\" \x7b",
    "  for_each = " ++ forEach,
    "\x7d",
    "resource \"aws_disk\" \"main\" \x7b",
    "  count = \" 3 \"",
    "\x7d"]

/-- A source that knows two zones. -/
def twoZones : DataSources where
  credentials _ := some ⟨"key", "secret", "us-east-1"⟩
  answer _ := some (.map [("ids", .list [.string "a", .string "b"])])

theorem listed_zones_counted :
    ∃ loaded bodies, load (zonesDirectory "[\"a\", \"b\"]") [] none = .ok loaded ∧
      (zonesDirectory "[\"a\", \"b\"]").bodies = .ok bodies ∧
      loaded.inventory.resources.map Resource.count = [2, 3] ∧
      ∀ block r, Resource.IsFrom bodies
        ((zonesDirectory "[\"a\", \"b\"]").environment [] bodies) none block r →
          r.CountAgrees block ∧ r.ForEachAgrees block := by
  have hcounts : (load (zonesDirectory "[\"a\", \"b\"]") [] none).toOption.map
      (fun loaded => loaded.inventory.resources.map Resource.count) = some [2, 3] := by
    decide +kernel
  cases hload : load (zonesDirectory "[\"a\", \"b\"]") [] none with
  | error e =>
    rw [hload] at hcounts
    cases hcounts
  | ok loaded =>
    rw [hload] at hcounts
    obtain ⟨bodies, hbodies, _, hagrees⟩ := load_countAgrees hload
    refine ⟨loaded, bodies, rfl, hbodies, Option.some.inj hcounts, ?_⟩
    intro block r hfrom
    obtain ⟨hcount, _, hforEach⟩ := hagrees block r hfrom
    exact ⟨hcount, hforEach rfl⟩

/-- The entries of an instance can be left to data, and then they are counted before they are known. -/
theorem forEach_left_to_data_disagrees :
    ¬ ∀ (directory : Directory) (overrides : Entries String) (sources : Option DataSources)
      (bodies : List Body), directory.bodies = .ok bodies →
        ∀ block r, Resource.IsFrom bodies (directory.environment overrides bodies) sources block r →
          r.CountAgrees block ∧ r.ForEachAgrees block := by
  intro hagrees
  let directory := zonesDirectory "data.aws_zones.all.ids"
  have hdisagrees : directory.bodies.toOption.any (fun bodies =>
      let env := directory.environment [] bodies
      bodies.any fun body => (body.blocksOf "resource").any fun block =>
        (Resource.ofBlock? env (providerRegions bodies env) block).any fun s =>
          !decide ((s.substitute (answered (some twoZones) bodies env)).ForEachAgrees block)) =
        true := by
    decide +kernel
  cases hbodies : directory.bodies with
  | error e =>
    rw [hbodies] at hdisagrees
    cases hdisagrees
  | ok bodies =>
    rw [hbodies] at hdisagrees
    obtain ⟨body, hbody, hblocks⟩ := List.any_eq_true.mp hdisagrees
    obtain ⟨block, hblock, hresource⟩ := List.any_eq_true.mp hblocks
    obtain ⟨s, hs, hnot⟩ := (Option.any_eq_true _ _).mp hresource
    have hforEach := (hagrees directory [] (some twoZones) bodies hbodies block _
      ⟨⟨body, hbody, hblock⟩, s, hs, rfl⟩).2
    simp [hforEach] at hnot

end TemplateCost
