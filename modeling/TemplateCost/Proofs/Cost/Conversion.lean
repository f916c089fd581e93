import Mathlib.Data.List.Forall2
import TemplateCost.Proofs.Cost.Rates

/-! # Estimates in another currency

A conversion multiplies every amount of an estimate by one rate, that from the currency of the
estimate to the target, and writes the target's code beside it. Lines without a price, counts, names
and texts stay. In its own currency an estimate stays as it is, so converting it once more to the
same target does nothing, whatever becomes of the rates in between.
-/
namespace TemplateCost

namespace Currency
variable {code : String}

end Currency

/-! ## Amounts at a rate -/

section
variable (rate : Float) (code : String)

/-- The same line with its amounts at a rate. -/
structure CostLine.Exchanged (before after : CostLine) : Prop where
  unitHourly : after.unitHourly = before.unitHourly * rate
  unitMonthly : after.unitMonthly = before.unitMonthly * rate
  totalHourly : after.totalHourly = before.totalHourly * rate
  totalMonthly : after.totalMonthly = before.totalMonthly * rate
  currency : after.currency = code
  resourceType : after.resourceType = before.resourceType
  resourceName : after.resourceName = before.resourceName
  provider : after.provider = before.provider
  count : after.count = before.count
  available : after.available = before.available

/-- The same summary with its totals at a rate. -/
structure ProviderSummary.Exchanged (before after : ProviderSummary) : Prop where
  totalHourly : after.totalHourly = before.totalHourly * rate
  totalMonthly : after.totalMonthly = before.totalMonthly * rate
  currency : after.currency = code
  provider : after.provider = before.provider
  resourceCount : after.resourceCount = before.resourceCount

/-- The same estimate with its amounts at a rate; a line without a price is left as it is. -/
structure Estimate.Exchanged (before after : Estimate) : Prop where
  totalHourly : after.totalHourly = before.totalHourly * rate
  totalMonthly : after.totalMonthly = before.totalMonthly * rate
  currency : after.currency = code
  lines : List.Forall₂ (fun line converted =>
    if line.available then line.Exchanged rate code converted else converted = line)
    before.lines after.lines
  summaries : List.Forall₂ (fun entry converted =>
    converted.1 = entry.1 ∧ entry.2.Exchanged rate code converted.2)
    before.summaries after.summaries
  unavailableCount : after.unavailableCount = before.unavailableCount
  timestamp : after.timestamp = before.timestamp
  disclaimer : after.disclaimer = before.disclaimer
  warnings : after.warnings = before.warnings

end

section
variable {rate : Float} {code : String}

theorem CostLine.exchanged_iff {before after : CostLine} :
    before.Exchanged rate code after ↔ after = before.scale rate code := by
  constructor
  · rintro ⟨hunitHourly, hunitMonthly, htotalHourly, htotalMonthly, hcurrency, htype, hname,
      hprovider, hcount, havailable⟩
    cases after
    simp only at *
    subst_vars
    rfl
  · rintro rfl
    exact ⟨rfl, rfl, rfl, rfl, rfl, rfl, rfl, rfl, rfl, rfl⟩

theorem ProviderSummary.exchanged_iff {before after : ProviderSummary} :
    before.Exchanged rate code after ↔ after = before.scale rate code := by
  constructor
  · rintro ⟨htotalHourly, htotalMonthly, hcurrency, hprovider, hcount⟩
    cases after
    simp only at *
    subst_vars
    rfl
  · rintro rfl
    exact ⟨rfl, rfl, rfl, rfl, rfl⟩

theorem forall₂_eq_map_iff {α β : Type} {f : α → β} {items : List α} {results : List β} :
    List.Forall₂ (fun a b => b = f a) items results ↔ results = items.map f := by
  rw [eq_comm, ← List.forall₂_eq_eq_eq, List.forall₂_map_left_iff]
  simp only [eq_comm]

theorem CostLine.carried_iff {before after : CostLine} :
    (if before.available then before.Exchanged rate code after else after = before) ↔
      after = if before.available then before.scale rate code else before := by
  split
  · exact exchanged_iff
  · exact Iff.rfl

/-- The scaled estimate is the only one: an exchange leaves nothing open. -/
theorem Estimate.exchanged_iff {before after : Estimate} :
    before.Exchanged rate code after ↔ after = before.scale rate code := by
  have hlines : ∀ lines, List.Forall₂ (fun line converted =>
      if line.available then line.Exchanged rate code converted else converted = line)
        before.lines lines ↔ lines = (before.scale rate code).lines := by
    intro lines
    simp only [CostLine.carried_iff]
    exact forall₂_eq_map_iff
  have hsummaries : ∀ summaries, List.Forall₂ (fun entry converted =>
      converted.1 = entry.1 ∧ entry.2.Exchanged rate code converted.2)
        before.summaries summaries ↔ summaries = (before.scale rate code).summaries := by
    intro summaries
    simp only [ProviderSummary.exchanged_iff]
    rw [scale, Entries.mapValues, ← forall₂_eq_map_iff]
    simp only [Prod.ext_iff]
  constructor
  · rintro ⟨htotalHourly, htotalMonthly, hcurrency, hl, hs, hunavailable, htimestamp, hdisclaimer,
      hwarnings⟩
    have hlines' := (hlines _).mp hl
    have hsummaries' := (hsummaries _).mp hs
    cases after
    simp only at *
    subst_vars
    rfl
  · rintro rfl
    exact ⟨rfl, rfl, rfl, (hlines _).mpr rfl, (hsummaries _).mpr rfl, rfl, rfl, rfl, rfl⟩

end

/-! ## Conversion -/

namespace Estimate
variable {table : RateTable} {target : Currency} {e converted : Estimate}

end Estimate

end TemplateCost
