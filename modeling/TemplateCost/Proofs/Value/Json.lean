import TemplateCost.Proofs.Entries
import TemplateCost.Proofs.Json.Documents
import TemplateCost.Proofs.Json.Short
import TemplateCost.Value.Json

/-! # Values read back from JSON

The text of a value does not say which kind of value it was: the reader has to find that out. It
does so for all kinds but placeholders, which come back as strings of their token. Whole
doubles are written with a point, so that they stay apart from integers.
-/
namespace TemplateCost

namespace Value

/-! ## Parts and depth -/

mutual
/-- The value and every value inside it. -/
def parts : Value → List Value
  | .list items => .list items :: partsOfItems items
  | .map entries => .map entries :: partsOfEntries entries
  | v => [v]
def partsOfItems : List Value → List Value
  | [] => []
  | item :: rest => item.parts ++ partsOfItems rest
def partsOfEntries : List (String × Value) → List Value
  | [] => []
  | (_, value) :: rest => value.parts ++ partsOfEntries rest
end

mutual
/-- How deep lists and maps nest. -/
def depth : Value → ℕ
  | .list items => depthOfItems items + 1
  | .map entries => depthOfEntries entries + 1
  | _ => 0
def depthOfItems : List Value → ℕ
  | [] => 0
  | item :: rest => max item.depth (depthOfItems rest)
def depthOfEntries : List (String × Value) → ℕ
  | [] => 0
  | (_, value) :: rest => max value.depth (depthOfEntries rest)
end

mutual
/-- The value with a string in the place of every placeholder. -/
def plain : Value → Value
  | .placeholder token => .string token
  | .list items => .list (plainItems items)
  | .map entries => .map (plainEntries entries)
  | v => v
def plainItems : List Value → List Value
  | [] => []
  | item :: rest => item.plain :: plainItems rest
def plainEntries : List (String × Value) → List (String × Value)
  | [] => []
  | (key, value) :: rest => (key, value.plain) :: plainEntries rest
end

theorem subset_partsOfItems {item : Value} {items : List Value} (h : item ∈ items) :
    item.parts ⊆ partsOfItems items := by
  induction items with
  | nil => cases h
  | cons other rest ih =>
    rcases List.mem_cons.mp h with rfl | hrest
    · exact List.subset_append_left _ _
    · exact List.Subset.trans (ih hrest) (List.subset_append_right _ _)

theorem subset_partsOfEntries {entry : String × Value} {entries : Entries Value} (h : entry ∈ entries) :
    entry.2.parts ⊆ partsOfEntries entries := by
  induction entries with
  | nil => cases h
  | cons other rest ih =>
    rcases List.mem_cons.mp h with rfl | hrest
    · exact List.subset_append_left _ _
    · exact List.Subset.trans (ih hrest) (List.subset_append_right _ _)

theorem depth_le_depthOfItems {item : Value} {items : List Value} (h : item ∈ items) :
    item.depth ≤ depthOfItems items := by
  induction items with
  | nil => cases h
  | cons other rest ih =>
    rcases List.mem_cons.mp h with rfl | hrest
    · exact Nat.le_max_left _ _
    · exact (ih hrest).trans (Nat.le_max_right _ _)

theorem depth_le_depthOfEntries {entry : String × Value} {entries : Entries Value} (h : entry ∈ entries) :
    entry.2.depth ≤ depthOfEntries entries := by
  induction entries with
  | nil => cases h
  | cons other rest ih =>
    rcases List.mem_cons.mp h with rfl | hrest
    · exact Nat.le_max_left _ _
    · exact (ih hrest).trans (Nat.le_max_right _ _)

/-- What is kept by JSON: the keys of every map in increasing order, as they always are, and
doubles that are finite and that are read back from their shortest decimal. -/
structure Portable (v : Value) : Prop where
  sorted : ∀ entries : Entries Value, .map entries ∈ v.parts → entries.Sorted
  finite : ∀ f, .float f ∈ v.parts → f.isFinite = true
  readsBack : ∀ f, .float f ∈ v.parts → Json.ReadsBack f

theorem Portable.of_subset {v part : Value} (h : v.Portable) (hpart : part.parts ⊆ v.parts) :
    part.Portable where
  sorted entries hentries := h.sorted entries (hpart hentries)
  finite f hf := h.finite f (hpart hf)
  readsBack f hf := h.readsBack f (hpart hf)

theorem Portable.item {items : List Value} (h : (Value.list items).Portable) {item : Value}
    (hitem : item ∈ items) : item.Portable :=
  h.of_subset (List.Subset.trans (subset_partsOfItems hitem) (List.subset_cons_self _ _))

theorem Portable.entry {entries : Entries Value} (h : (Value.map entries).Portable)
    {entry : String × Value} (hentry : entry ∈ entries) : entry.2.Portable :=
  h.of_subset (List.Subset.trans (subset_partsOfEntries hentry) (List.subset_cons_self _ _))

/-! ## Writing -/

theorem itemsToJson_eq_map (items : List Value) : itemsToJson items = items.map toJson := by
  induction items with
  | nil => rfl
  | cons item rest ih => rw [itemsToJson, ih, List.map_cons]

theorem entriesToJson_eq_mapValues (entries : Entries Value) :
    entriesToJson entries = entries.mapValues toJson := by
  induction entries with
  | nil => rfl
  | cons entry rest ih =>
    rw [entriesToJson, ih]
    rfl

theorem isWhole_toInt (i : Int64) : Json.IsWhole i.toInt := by
  have hlow := i.le_toInt
  have hhigh := i.toInt_lt
  constructor <;> omega

theorem readable_toJson {v : Value} (h : v.Portable) {levels : ℕ} (hdepth : v.depth ≤ levels) :
    Json.Readable levels v.toJson := by
  induction v using induction generalizing levels with
  | bool b => exact .bool b
  | number n =>
    cases n with
    | int i => exact .int (isWhole_toInt i)
    | float f => exact .float (h.finite f (by simp [parts, float])) (h.readsBack f (by simp [parts, float]))
  | string text => exact .string text
  | list items ih =>
    obtain ⟨n, rfl⟩ : ∃ n, levels = n + 1 := ⟨levels - 1, by rw [depth] at hdepth; omega⟩
    rw [toJson, itemsToJson_eq_map]
    refine .array fun document hdocument => ?_
    obtain ⟨item, hitem, rfl⟩ := List.mem_map.mp hdocument
    exact ih item hitem (h.item hitem) ((depth_le_depthOfItems hitem).trans (Nat.le_of_succ_le_succ hdepth))
  | map entries ih =>
    obtain ⟨n, rfl⟩ : ∃ n, levels = n + 1 := ⟨levels - 1, by rw [depth] at hdepth; omega⟩
    rw [toJson, entriesToJson_eq_mapValues]
    refine .object fun field hfield => ?_
    obtain ⟨entry, hentry, rfl⟩ := List.mem_map.mp hfield
    exact ih entry hentry (h.entry hentry)
      ((depth_le_depthOfEntries hentry).trans (Nat.le_of_succ_le_succ hdepth))
  | placeholder token => exact .string token

/-! ## Reading -/

theorem itemsOfJson?_itemsToJson {items : List Value}
    (h : ∀ item ∈ items, ofJson? item.toJson = some item.plain) :
    itemsOfJson? (itemsToJson items) = some (plainItems items) := by
  induction items with
  | nil => rfl
  | cons item rest ih =>
    obtain ⟨hitem, hrest⟩ := List.forall_mem_cons.mp h
    rw [itemsToJson, itemsOfJson?, hitem, ih hrest]
    rfl

theorem fieldsOfJson?_entriesToJson {entries : Entries Value}
    (h : ∀ entry ∈ entries, ofJson? entry.2.toJson = some entry.2.plain) :
    fieldsOfJson? (entriesToJson entries) = some (plainEntries entries) := by
  induction entries with
  | nil => rfl
  | cons entry rest ih =>
    obtain ⟨hentry, hrest⟩ := List.forall_mem_cons.mp h
    rw [entriesToJson, fieldsOfJson?, hentry, ih hrest]
    rfl

theorem plainEntries_eq_mapValues (entries : Entries Value) :
    plainEntries entries = entries.mapValues plain := by
  induction entries with
  | nil => rfl
  | cons entry rest ih =>
    rw [plainEntries, ih]
    rfl

theorem ofJson?_toJson {v : Value} (h : v.Portable) : ofJson? v.toJson = some v.plain := by
  induction v using induction with
  | bool b => rfl
  | number n =>
    cases n with
    | int i =>
      have hread := Decimal.toInt64?_toInt i
      rw [toJson, Number.toJson, ofJson?, hread]
      rfl
    | float f => rfl
  | string text => rfl
  | list items ih =>
    have hitems := itemsOfJson?_itemsToJson fun item hitem => ih item hitem (h.item hitem)
    rw [toJson, ofJson?, hitems]
    rfl
  | map entries ih =>
    have hfields := fieldsOfJson?_entriesToJson fun entry hentry => ih entry hentry (h.entry hentry)
    have hsorted : Entries.Sorted (plainEntries entries) := by
      rw [plainEntries_eq_mapValues]
      exact (h.sorted entries (List.mem_cons_self ..)).mapValues plain
    rw [toJson, ofJson?, hfields, Option.map_some, hsorted.ofList_eq]
    rfl
  | placeholder token => rfl

theorem ofJsonText?_jsonText {v : Value} (h : v.Portable) (hdepth : v.depth < 128) :
    ofJsonText? v.jsonText = some v.plain := by
  have hlevels : v.depth ≤ Json.deepest := Nat.le_of_lt_succ hdepth
  have hreadable := readable_toJson h hlevels
  rw [ofJsonText?, jsonText, Json.parse?_eq_parseWithin?, Json.parseWithin?_compactText hreadable]
  exact ofJson?_toJson h

/-- A value of every kind, with the ends of the integers, whole doubles and characters to escape. -/
def allKinds : Value :=
  .map [("", .map []), ("count", .list [.int Int64.minValue, .int Int64.maxValue, .float 2, .float (-0.1)]),
    ("na\x22me\n", .list [.string "\\ \x01 \x7f é", .bool true, .list [], .placeholder "<var.region>"])]

theorem ofJsonText?_jsonText_allKinds :
    allKinds.Portable ∧ allKinds.depth < 128 ∧ ofJsonText? allKinds.jsonText = some allKinds.plain := by
  have hportable : allKinds.Portable := by
    constructor
    · intro entries hentries
      simp [allKinds, parts, partsOfItems, partsOfEntries, int, float] at hentries
      rcases hentries with rfl | rfl <;> decide
    · intro f hf
      simp [allKinds, parts, partsOfItems, partsOfEntries, int, float] at hf
      rcases hf with rfl | rfl <;> decide +kernel
    · intro f hf
      simp [allKinds, parts, partsOfItems, partsOfEntries, int, float] at hf
      rcases hf with rfl | rfl <;> exact .of_isShort (by decide +kernel)
  have hdepth : allKinds.depth < 128 := by decide
  exact ⟨hportable, hdepth, ofJsonText?_jsonText hportable hdepth⟩

end Value
end TemplateCost
