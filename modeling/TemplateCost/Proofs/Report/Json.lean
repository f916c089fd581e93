import TemplateCost.Proofs.Value.Json
import TemplateCost.Report.Json

/-! # JSON reports read back

A report is read back as what it reports, whatever characters its texts are made of. Records are
read by the names of their fields, so the order in which they are written does not count; a field that was
left out is read as empty.
-/
namespace TemplateCost

theorem mapM_map_eq_some {α β γ : Type} {write : α → β} {read : β → Option γ} {kept : α → γ}
    {items : List α}
    (h : ∀ item ∈ items, read (write item) = some (kept item)) :
    (items.map write).mapM read = some (items.map kept) := by
  induction items with
  | nil => rfl
  | cons item rest ih =>
    obtain ⟨hitem, hrest⟩ := List.forall_mem_cons.mp h
    rw [List.map_cons, List.mapM_cons, hitem, ih hrest]
    rfl

/-! ## Fields -/

namespace Json

def field? (key : String) : Json → Option Json
  | .object fields => Entries.get? key fields
  | _ => none

def string? : Json → Option String
  | .string text => some text
  | _ => none

def bool? : Json → Option Bool
  | .bool b => some b
  | _ => none

def double? : Json → Option Float
  | .float f => some f
  | .int i => some (Float.ofInt i)
  | _ => none

def int64? : Json → Option Int64
  | .int i => Decimal.toInt64? i
  | _ => none

/-- A number of things, which has 64 bits. -/
def size? : Json → Option ℕ
  | .int (.ofNat n) => if n < 0x10000000000000000 then some n else none
  | _ => none

/-- The items of an array, each of them converted. -/
def list? (convert : Json → Option α) : Json → Option (List α)
  | .array items => items.mapM convert
  | _ => none

def object? : Json → Option (List (String × Json))
  | .object fields => some fields
  | _ => none

/-- The field, converted; it must be there. -/
def required? (document : Json) (key : String) (convert : Json → Option α) : Option α :=
  document.field? key >>= convert

/-- The field, converted; if it is not there, it is empty. -/
def optional? (document : Json) (key : String) (convert : Json → Option (List α)) : Option (List α) :=
  match document.field? key with
  | some inner => convert inner
  | none => some []

theorem list?_map {α : Type} {write : α → Json} {read : Json → Option α} {items : List α}
    (h : ∀ item ∈ items, read (write item) = some item) : list? read (.array (items.map write)) = some items := by
  have hread : (items.map write).mapM read = some (items.map id) := mapM_map_eq_some h
  rwa [List.map_id] at hread

theorem field?_record (key : String) (fields : List (String × Json)) :
    (record fields).field? key = Entries.get? key fields.reverse :=
  Entries.get?_ofList key fields

theorem size?_nat {n : ℕ} (h : n < 0x10000000000000000) : (nat n).size? = some n := by
  change (if n < 0x10000000000000000 then some n else none) = some n
  rw [if_pos h]

theorem readable_nat {levels n : ℕ} (h : n < 0x10000000000000000) : Readable levels (nat n) :=
  .int (by constructor <;> omega)

theorem readable_record {levels : ℕ} {fields : List (String × Json)}
    (h : ∀ field ∈ fields, Readable levels field.2) : Readable (levels + 1) (record fields) :=
  .object fun field hfield => h field (Entries.mem_of_mem_ofList hfield)

end Json

/-! ## Estimates -/

namespace CostLine

def ofJson? (document : Json) : Option CostLine := do
  pure {
    resourceType := ← document.required? "resource_type" Json.string?
    resourceName := ← document.required? "resource_name" Json.string?
    provider := ← document.required? "provider" Json.string?
    count := ← document.required? "count" Json.int64?
    unitHourly := ← document.required? "unit_hourly" Json.double?
    unitMonthly := ← document.required? "unit_monthly" Json.double?
    totalHourly := ← document.required? "total_hourly" Json.double?
    totalMonthly := ← document.required? "total_monthly" Json.double?
    currency := ← document.required? "currency" Json.string?
    available := ← document.required? "available" Json.bool? }

def amounts (line : CostLine) : List Float :=
  [line.unitHourly, line.unitMonthly, line.totalHourly, line.totalMonthly]

theorem ofJson?_toJson (line : CostLine) : ofJson? line.toJson = some line := by
  have hcount := Decimal.toInt64?_toInt line.count
  simp [ofJson?, toJson, Json.required?, Json.field?_record, Entries.get?_cons, Json.string?, Json.bool?,
    Json.double?, Json.int64?, hcount]

theorem readable_toJson {line : CostLine} (hfinite : ∀ f ∈ line.amounts, f.isFinite = true)
    (hreads : ∀ f ∈ line.amounts, Json.ReadsBack f) {levels : ℕ} :
    Json.Readable (levels + 1) line.toJson := by
  simp only [amounts, List.forall_mem_cons] at hfinite hreads
  refine Json.readable_record ?_
  simp only [List.forall_mem_cons]
  exact ⟨.string _, .string _, .string _, .int (Value.isWhole_toInt _), .float hfinite.1 hreads.1,
    .float hfinite.2.1 hreads.2.1, .float hfinite.2.2.1 hreads.2.2.1,
    .float hfinite.2.2.2.1 hreads.2.2.2.1, .string _, .bool _, nofun⟩

end CostLine

namespace ProviderSummary

def ofJson? (document : Json) : Option ProviderSummary := do
  pure {
    provider := ← document.required? "provider" Json.string?
    totalHourly := ← document.required? "total_hourly_cost" Json.double?
    totalMonthly := ← document.required? "total_monthly_cost" Json.double?
    currency := ← document.required? "currency" Json.string?
    resourceCount := ← document.required? "resource_count" Json.size? }

def fieldOfJson? (field : String × Json) : Option (String × ProviderSummary) :=
  (ofJson? field.2).map fun summary => (field.1, summary)

def amounts (summary : ProviderSummary) : List Float := [summary.totalHourly, summary.totalMonthly]

theorem ofJson?_toJson {summary : ProviderSummary} (h : summary.resourceCount < 0x10000000000000000) :
    ofJson? summary.toJson = some summary := by
  have hcount := Json.size?_nat h
  simp [ofJson?, toJson, Json.required?, Json.field?_record, Entries.get?_cons, Json.string?, Json.double?,
    hcount]

theorem readable_toJson {summary : ProviderSummary} (hfinite : ∀ f ∈ summary.amounts, f.isFinite = true)
    (hreads : ∀ f ∈ summary.amounts, Json.ReadsBack f) (hcount : summary.resourceCount < 0x10000000000000000)
    {levels : ℕ} : Json.Readable (levels + 1) summary.toJson := by
  simp only [amounts, List.forall_mem_cons] at hfinite hreads
  refine Json.readable_record ?_
  simp only [List.forall_mem_cons]
  exact ⟨.string _, .float hfinite.1 hreads.1, .float hfinite.2.1 hreads.2.1, .string _,
    Json.readable_nat hcount, nofun⟩

end ProviderSummary

namespace Estimate

def summariesOfJson? (document : Json) : Option (Entries ProviderSummary) := do
  let fields ← document.object?
  let list ← fields.mapM ProviderSummary.fieldOfJson?
  pure (Entries.ofList list)

def ofJson? (document : Json) : Option Estimate := do
  pure {
    totalHourly := ← document.required? "total_hourly_cost" Json.double?
    totalMonthly := ← document.required? "total_monthly_cost" Json.double?
    currency := ← document.required? "currency" Json.string?
    lines := ← document.required? "breakdown" (Json.list? CostLine.ofJson?)
    summaries := ← document.optional? "provider_breakdown" summariesOfJson?
    unavailableCount := ← document.required? "unavailable_count" Json.size?
    timestamp := ← document.required? "timestamp" Json.string?
    disclaimer := ← document.required? "disclaimer" Json.string?
    warnings := ← document.optional? "warnings" (Json.list? Json.string?) }

def amounts (e : Estimate) : List Float :=
  e.totalHourly :: e.totalMonthly ::
    (e.lines.flatMap CostLine.amounts ++ e.summaries.flatMap fun entry => entry.2.amounts)

/-- What is kept by JSON: summaries in increasing order of their keys, as they always are, counts
of 64 bits, and amounts that are finite and that are read back from their shortest decimal. -/
structure Portable (e : Estimate) : Prop where
  sorted : e.summaries.Sorted
  unavailable_lt : e.unavailableCount < 0x10000000000000000
  resources_lt : ∀ entry ∈ e.summaries, entry.2.resourceCount < 0x10000000000000000
  finite : ∀ f ∈ e.amounts, f.isFinite = true
  readsBack : ∀ f ∈ e.amounts, Json.ReadsBack f

/-! ### The fields of an estimate -/

theorem get?_omitted (key other : String) (value : Json) (b : Bool) :
    Entries.get? key (if b then [] else [(other, value)]).reverse =
      if other = key then if b then none else some value else none := by
  cases b <;> simp [Entries.get?_cons, Entries.get?_nil]

theorem field?_toJson (e : Estimate) (key : String) :
    e.toJson.field? key =
      ((if "warnings" = key then if e.warnings.isEmpty then none else some (.array (e.warnings.map .string))
        else none).or
       (if "provider_breakdown" = key then if e.summaries.isEmpty then none
          else some (.object (e.summaries.mapValues ProviderSummary.toJson)) else none)).or
      (Entries.get? key [("disclaimer", .string e.disclaimer), ("timestamp", .string e.timestamp),
        ("unavailable_count", .nat e.unavailableCount), ("breakdown", .array (e.lines.map CostLine.toJson)),
        ("currency", .string e.currency), ("total_monthly_cost", .float e.totalMonthly),
        ("total_hourly_cost", .float e.totalHourly)]) := by
  rw [toJson, Json.field?_record, List.reverse_append, List.reverse_append, Entries.get?_append,
    Entries.get?_append, get?_omitted, get?_omitted, Option.or_assoc]
  rfl

theorem field?_summaries (e : Estimate) :
    e.toJson.field? "provider_breakdown" = if e.summaries.isEmpty then none
      else some (.object (e.summaries.mapValues ProviderSummary.toJson)) := by
  simp [field?_toJson, Entries.get?_cons, Entries.get?_nil]

theorem field?_warnings (e : Estimate) :
    e.toJson.field? "warnings" = if e.warnings.isEmpty then none
      else some (.array (e.warnings.map .string)) := by
  simp [field?_toJson, Entries.get?_cons, Entries.get?_nil]

theorem summariesOfJson?_mapValues {summaries : Entries ProviderSummary} (hsorted : summaries.Sorted)
    (hcounts : ∀ entry ∈ summaries, entry.2.resourceCount < 0x10000000000000000) :
    summariesOfJson? (.object (summaries.mapValues ProviderSummary.toJson)) = some summaries := by
  have hread : (summaries.mapValues ProviderSummary.toJson).mapM ProviderSummary.fieldOfJson? =
      some (summaries.map id) := by
    refine mapM_map_eq_some fun entry hentry => ?_
    rw [ProviderSummary.fieldOfJson?, ProviderSummary.ofJson?_toJson (hcounts entry hentry)]
    rfl
  rw [List.map_id] at hread
  change Option.bind (List.mapM _ _) (fun list => some (Entries.ofList list)) = _
  rw [hread, Option.bind_some, hsorted.ofList_eq]

theorem ofJson?_toJson {e : Estimate} (h : e.Portable) : ofJson? e.toJson = some e := by
  have hunavailable := Json.size?_nat h.unavailable_lt
  have hlines := Json.list?_map fun line (_ : line ∈ e.lines) => CostLine.ofJson?_toJson line
  have hwarnings : Json.list? Json.string? (.array (e.warnings.map .string)) = some e.warnings :=
    Json.list?_map fun _ _ => rfl
  have hsummaries := summariesOfJson?_mapValues h.sorted h.resources_lt
  have hbreakdown : e.toJson.optional? "provider_breakdown" summariesOfJson? = some e.summaries := by
    rw [Json.optional?, field?_summaries]
    cases hs : e.summaries with
    | nil => rfl
    | cons entry rest => rwa [hs] at hsummaries
  have hwarned : e.toJson.optional? "warnings" (Json.list? Json.string?) = some e.warnings := by
    rw [Json.optional?, field?_warnings]
    cases hw : e.warnings with
    | nil => rfl
    | cons warning rest => rwa [hw] at hwarnings
  simp [ofJson?, Json.required?, field?_toJson, Entries.get?_cons, Json.string?, Json.double?,
    hunavailable, hlines, hbreakdown, hwarned]

theorem readable_toJson {e : Estimate} (h : e.Portable) {levels : ℕ} : Json.Readable (levels + 3) e.toJson := by
  have hline : ∀ line ∈ e.lines, ∀ f ∈ line.amounts, f ∈ e.amounts := fun line hline f hf =>
    List.mem_cons_of_mem _ (List.mem_cons_of_mem _
      (List.mem_append_left _ (List.mem_flatMap.mpr ⟨line, hline, hf⟩)))
  have hsummary : ∀ entry ∈ e.summaries, ∀ f ∈ entry.2.amounts, f ∈ e.amounts := fun entry hentry f hf =>
    List.mem_cons_of_mem _ (List.mem_cons_of_mem _
      (List.mem_append_right _ (List.mem_flatMap.mpr ⟨entry, hentry, hf⟩)))
  have hamount : ∀ f ∈ e.amounts, Json.Readable (levels + 2) (.float f) := fun f hf =>
    .float (h.finite f hf) (h.readsBack f hf)
  refine Json.readable_record ?_
  rw [List.forall_mem_append, List.forall_mem_append]
  refine ⟨⟨?_, ?_⟩, ?_⟩
  · simp only [List.forall_mem_cons]
    refine ⟨hamount _ (by simp [amounts]), hamount _ (by simp [amounts]), .string _, .array ?_,
      Json.readable_nat h.unavailable_lt, .string _, .string _, nofun⟩
    intro document hdocument
    obtain ⟨line, hmem, rfl⟩ := List.mem_map.mp hdocument
    exact CostLine.readable_toJson (fun f hf => h.finite f (hline line hmem f hf))
      fun f hf => h.readsBack f (hline line hmem f hf)
  · split
    · nofun
    · refine List.forall_mem_singleton.mpr (.object fun field hfield => ?_)
      obtain ⟨entry, hmem, rfl⟩ := List.mem_map.mp hfield
      exact ProviderSummary.readable_toJson (fun f hf => h.finite f (hsummary entry hmem f hf))
        (fun f hf => h.readsBack f (hsummary entry hmem f hf)) (h.resources_lt entry hmem)
  · split
    · nofun
    · refine List.forall_mem_singleton.mpr (.array fun document hdocument => ?_)
      obtain ⟨warning, _, rfl⟩ := List.mem_map.mp hdocument
      exact .string warning

end Estimate

/-! ## Templates -/

namespace Resource

def attributesOfJson? (document : Json) : Option (Entries Value) :=
  match Value.ofJson? document with
  | some (.map entries) => some entries
  | _ => none

def ofJson? (document : Json) : Option Resource := do
  pure {
    type := ← document.required? "type" Json.string?
    name := ← document.required? "name" Json.string?
    count := ← document.required? "count" Json.int64?
    attributes := ← document.required? "attributes" attributesOfJson?
    provider := ← document.required? "provider" Json.string?
    region := ← document.required? "region" Json.string? }

/-- The resource with strings in the place of the placeholders among its attributes. -/
def plain (r : Resource) : Resource := { r with attributes := r.attributes.mapValues Value.plain }

theorem ofJson?_toJson {r : Resource} (h : (Value.map r.attributes).Portable) :
    ofJson? r.toJson = some r.plain := by
  have hcount := Decimal.toInt64?_toInt r.count
  have hread := Value.ofJson?_toJson h
  have hattributes : attributesOfJson? (Value.map r.attributes).toJson =
      some (r.attributes.mapValues Value.plain) := by
    rw [attributesOfJson?, hread, Value.plain, Value.plainEntries_eq_mapValues]
  simp [ofJson?, toJson, Json.required?, Json.field?_record, Entries.get?_cons, Json.string?, Json.int64?,
    hcount, hattributes, plain]

theorem readable_toJson {r : Resource} (h : (Value.map r.attributes).Portable) {levels : ℕ}
    (hdepth : (Value.map r.attributes).depth ≤ levels) : Json.Readable (levels + 1) r.toJson := by
  refine Json.readable_record ?_
  simp only [List.forall_mem_cons]
  exact ⟨.string _, .string _, .int (Value.isWhole_toInt _), Value.readable_toJson h hdepth, .string _,
    .string _, nofun⟩

end Resource

namespace Inventory

def ofJson? (document : Json) : Option Inventory := do
  pure {
    provider := ← document.required? "provider" Json.string?
    region := ← document.required? "region" Json.string?
    resources := ← document.required? "resources" (Json.list? Resource.ofJson?) }

def plain (inventory : Inventory) : Inventory :=
  { inventory with resources := inventory.resources.map Resource.plain }

/-- How deep the attributes of the resources nest. -/
def depth (inventory : Inventory) : ℕ :=
  inventory.resources.foldr (fun r deepest => max (Value.map r.attributes).depth deepest) 0

theorem le_depth {inventory : Inventory} {r : Resource} (h : r ∈ inventory.resources) :
    (Value.map r.attributes).depth ≤ inventory.depth := by
  obtain ⟨provider, region, resources⟩ := inventory
  unfold depth
  induction resources with
  | nil => cases h
  | cons other rest ih =>
    rcases List.mem_cons.mp h with rfl | hrest
    · exact Nat.le_max_left _ _
    · exact (ih hrest).trans (Nat.le_max_right _ _)

/-- The attributes of every resource are kept by JSON. -/
def Portable (inventory : Inventory) : Prop :=
  ∀ r ∈ inventory.resources, (Value.map r.attributes).Portable

theorem ofJson?_toJson {inventory : Inventory} (h : inventory.Portable) :
    ofJson? inventory.toJson = some inventory.plain := by
  have hresources : Json.list? Resource.ofJson? (.array (inventory.resources.map Resource.toJson)) =
      some (inventory.resources.map Resource.plain) :=
    mapM_map_eq_some fun r hr => Resource.ofJson?_toJson (h r hr)
  simp [ofJson?, toJson, Json.required?, Json.field?_record, Entries.get?_cons, Json.string?, hresources, plain]

theorem readable_toJson {inventory : Inventory} (h : inventory.Portable) {levels : ℕ}
    (hdepth : inventory.depth ≤ levels) : Json.Readable (levels + 3) inventory.toJson := by
  refine Json.readable_record ?_
  simp only [List.forall_mem_cons]
  refine ⟨.string _, .string _, .array fun document hdocument => ?_, nofun⟩
  obtain ⟨r, hr, rfl⟩ := List.mem_map.mp hdocument
  exact Resource.readable_toJson (h r hr) ((le_depth hr).trans hdepth)

end Inventory

/-! ## Reports -/

namespace JsonReport

theorem parseWithin?_report (key : String) {document : Json} {levels : ℕ} (hkey : "backend" < key)
    (h : Json.Readable levels document) :
    Json.parseWithin? (levels + 1)
        (Json.record [("backend", .string "json"), (key, document)]).indentedText.toList =
      some (.object [("backend", .string "json"), (key, document)]) := by
  have hreadable : Json.Readable (levels + 1) (.record [("backend", .string "json"), (key, document)]) := by
    refine Json.readable_record ?_
    simp only [List.forall_mem_cons]
    exact ⟨.string _, h, nofun⟩
  have hsorted : Entries.Sorted [("backend", Json.string "json"), (key, document)] := by
    simpa [Entries.Sorted] using hkey
  rw [Json.parseWithin?_indentedText hreadable, Json.record, hsorted.ofList_eq]

/-- Both reports are documents that name the backend and hold what is reported, to be read by name. Of
an estimate that is everything, with the summaries and the warnings left out iff there are none; of a
template it is everything once placeholders are strings. The reader goes as deep as attributes nest. -/
theorem reports_readBack {e : Estimate} (he : e.Portable) {inventory : Inventory}
    (hinventory : inventory.Portable) {levels : ℕ} (hlevels : inventory.depth + 4 ≤ levels) :
    (Json.parse? (ofEstimate e).toList =
        some (.object [("backend", .string "json"), ("estimate", e.toJson)]) ∧
      Estimate.ofJson? e.toJson = some e ∧
      (e.toJson.field? "provider_breakdown" = none ↔ e.summaries = []) ∧
      (e.toJson.field? "warnings" = none ↔ e.warnings = [])) ∧
    (Json.parseWithin? levels (ofInventory inventory).toList =
        some (.object [("backend", .string "json"), ("template", inventory.toJson)]) ∧
      Inventory.ofJson? inventory.toJson = some inventory.plain) := by
  obtain ⟨levels, rfl⟩ : ∃ n, levels = n + 3 + 1 := ⟨levels - 4, by omega⟩
  have hestimate : Json.Readable 126 e.toJson := Estimate.readable_toJson he
  have htemplate : Json.Readable (levels + 3) inventory.toJson := Inventory.readable_toJson hinventory (by omega)
  refine ⟨⟨?_, Estimate.ofJson?_toJson he, ?_, ?_⟩, ?_, Inventory.ofJson?_toJson hinventory⟩
  · exact parseWithin?_report "estimate" (by decide) hestimate
  · rw [Estimate.field?_summaries]
    simp
  · rw [Estimate.field?_warnings]
    simp
  · exact parseWithin?_report "template" (by decide) htemplate

/-- An estimate with a summary and a warning, with characters to escape. -/
def sampleEstimate : Estimate where
  totalHourly := 0.5
  totalMonthly := 360
  currency := "USD"
  lines := [⟨"aws_instance", "we\x22b\n", "aws", 2, 0.25, 180, 0.5, 360, "USD", true⟩,
    ⟨"aws_vpc", "net", "aws", Int64.maxValue, 0, 0, 0, 0, "USD", false⟩]
  summaries := [("aws", ⟨"aws", 0.5, 360, "USD", 1⟩)]
  unavailableCount := 1
  timestamp := "2024-01-01T00:00:00Z"
  disclaimer := standardDisclaimer
  warnings := ["aws_vpc.net: \\ \x01"]

def sampleInventory : Inventory where
  provider := "aws"
  region := ""
  resources := [⟨"aws_instance", "web", 1,
    [("tags", .map [("a\x22", .placeholder "<var.x>"), ("é", .list [.float 2])])], "aws", ""⟩]

theorem reports_readBack_sample :
    sampleEstimate.Portable ∧ sampleInventory.Portable ∧ sampleInventory.depth + 4 ≤ Json.deepest ∧
    (Json.parse? (ofEstimate sampleEstimate).toList =
        some (.object [("backend", .string "json"), ("estimate", sampleEstimate.toJson)]) ∧
      Estimate.ofJson? sampleEstimate.toJson = some sampleEstimate) ∧
    (Json.parse? (ofInventory sampleInventory).toList =
        some (.object [("backend", .string "json"), ("template", sampleInventory.toJson)]) ∧
      Inventory.ofJson? sampleInventory.toJson = some sampleInventory.plain) := by
  have hshort : ∀ f ∈ sampleEstimate.amounts, Json.IsShort f := by decide +kernel
  have hestimate : sampleEstimate.Portable :=
    ⟨by decide, by decide, by decide, by decide +kernel, fun f hf => .of_isShort (hshort f hf)⟩
  have hinventory : sampleInventory.Portable := by
    refine List.forall_mem_singleton.mpr ⟨?_, ?_, ?_⟩
    · intro entries hentries
      simp [Value.parts, Value.partsOfItems, Value.partsOfEntries, Value.float] at hentries
      rcases hentries with rfl | rfl <;> decide
    · intro f hf
      simp [Value.parts, Value.partsOfItems, Value.partsOfEntries, Value.float] at hf
      subst hf
      decide +kernel
    · intro f hf
      simp [Value.parts, Value.partsOfItems, Value.partsOfEntries, Value.float] at hf
      subst hf
      exact .of_isShort (by decide +kernel)
  have hdepth : sampleInventory.depth + 4 ≤ Json.deepest := by decide
  have hreports := reports_readBack hestimate hinventory hdepth
  exact ⟨hestimate, hinventory, hdepth, ⟨hreports.1.1, hreports.1.2.1⟩, hreports.2⟩

end JsonReport
end TemplateCost
