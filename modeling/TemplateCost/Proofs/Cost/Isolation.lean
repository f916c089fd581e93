import Mathlib.Data.List.Forall2
import TemplateCost.Proofs.Cost.Run
import TemplateCost.Proofs.Entries

/-! # Isolation of resources

A resource is priced as if it stood alone: its line, its warning and its question do not depend on the
resources around it, priced or not. What is counted over a run balances: each line without a price
has one warning, and each line with a price is counted in one summary.
-/
namespace TemplateCost

theorem CostLine.unavailable_unpricedLine (r : Resource) : r.unpricedLine.available = false := rfl

namespace Estimate

/-- Resources that the summaries count. -/
def summarized (e : Estimate) : ℕ := (e.summaries.map fun entry => entry.2.resourceCount).sum

/-- Every line is counted once: as unavailable, together with its warning, or in a summary. -/
structure Balanced (e : Estimate) : Prop where
  warned : e.unavailableCount = e.warnings.length
  unavailable : e.unavailableCount = e.lines.countP fun line => !line.available
  sorted : e.summaries.Sorted
  counted : e.summarized + e.unavailableCount = e.lines.length

theorem balanced_empty (timestamp : String) : (empty timestamp).Balanced where
  warned := rfl
  unavailable := rfl
  sorted := Entries.sorted_nil
  counted := rfl

/-- A priced line is counted in one summary, which is a new one or has counted others before. -/
theorem summarized_addPriced {e : Estimate} (h : e.summaries.Sorted) (line : CostLine) :
    (e.addPriced line).summarized = e.summarized + 1 := by
  have hsum := Entries.sum_insert ProviderSummary.resourceCount line.summaryKey
    (((e.summaries.get? line.summaryKey).getD (.start line.summaryKey line.currency)).add line) h
  have hstep : (e.addPriced line).summaries = e.summaries.insert line.summaryKey
    (((e.summaries.get? line.summaryKey).getD (.start line.summaryKey line.currency)).add line) := rfl
  simp only [summarized, hstep]
  cases hg : e.summaries.get? line.summaryKey with
  | none =>
    simp only [hg, Option.map_none, Option.getD_none, ProviderSummary.add, ProviderSummary.start] at hsum ⊢
    omega
  | some summary =>
    simp only [hg, Option.map_some, Option.getD_some, ProviderSummary.add] at hsum ⊢
    omega

theorem Balanced.addPriced {e : Estimate} (h : e.Balanced) {line : CostLine}
    (hl : line.available = true) : (e.addPriced line).Balanced where
  warned := h.warned
  unavailable := by simpa [List.countP_append, hl] using h.unavailable
  sorted := Entries.sorted_insert _ _ h.sorted
  counted := by
    have hc := h.counted
    have hs := summarized_addPriced h.sorted line
    simp only [addPriced_unavailableCount, addPriced_lines, List.length_append, List.length_singleton]
    omega

theorem Balanced.addUnpriced {e : Estimate} (h : e.Balanced) (r : Resource) (reason : Unpriced) :
    (e.addUnpriced r reason).Balanced where
  warned := by simpa using h.warned
  unavailable := by
    simpa [List.countP_append, CostLine.unavailable_unpricedLine] using h.unavailable
  sorted := h.sorted
  counted := by
    have hc := h.counted
    have hs : (e.addUnpriced r reason).summarized = e.summarized := rfl
    simp only [addUnpriced_unavailableCount, addUnpriced_lines, List.length_append,
      List.length_singleton]
    omega

theorem Balanced.step {e : Estimate} (h : e.Balanced) (source : PriceSource) (r : Resource) :
    (step source e r).Balanced := by
  rcases step_cases source e r with ⟨line, _, hl, hs⟩ | ⟨reason, _, hs⟩
  · exact hs ▸ h.addPriced hl
  · exact hs ▸ h.addUnpriced r reason

theorem calculate_balanced (source : PriceSource) (timestamp : String) (resources : List Resource) :
    (calculate source timestamp resources).Balanced := by
  have h : (resources.foldl (Estimate.step source) (empty timestamp)).Balanced :=
    foldl_step_induction (fun _ r h => h.step source r) (balanced_empty timestamp) resources
  exact ⟨by simpa [calculate] using h.warned, by simpa [calculate] using h.unavailable,
    by simpa [calculate] using h.sorted, by simpa [calculate, summarized] using h.counted⟩

theorem questions_eq_flatMap (resources : List Resource) :
    questions resources = resources.flatMap fun r => questions [r] := by
  induction resources with
  | nil => rfl
  | cons r rest ih =>
    rw [questions_cons, ih, List.flatMap_cons, questions_cons r [], List.append_assoc]
    rfl

/-- The run over all resources beside the runs over each of them alone, which may take place at other
times: lines, warnings and questions are those of the single runs in order. -/
theorem calculate_isolates (source : PriceSource) (timestamp moment : String)
    (resources : List Resource) :
    let whole := (calculateAsking source timestamp resources).after []
    let alone := fun r : Resource => (calculateAsking source moment [r]).after []
    whole.1 = calculate source timestamp resources ∧
    List.Forall₂ (fun line r => (alone r).1.lines = [line]) whole.1.lines resources ∧
    whole.2 = (resources.flatMap fun r => (alone r).2) ∧
    whole.1.warnings = (resources.flatMap fun r => (alone r).1.warnings) ∧
    whole.1.unavailableCount = whole.1.warnings.length ∧
    whole.1.unavailableCount = (whole.1.lines.countP fun line => !line.available) ∧
    (whole.1.summaries.map fun entry => entry.2.resourceCount).sum + whole.1.unavailableCount =
      resources.length := by
  have h := calculate_balanced source timestamp resources
  have hlength := h.counted
  rw [calculate_lines, List.length_map] at hlength
  simp only [after_calculateAsking, List.nil_append, calculate_lines source moment]
  refine ⟨trivial, ?_, questions_eq_flatMap resources, ?_, h.warned, h.unavailable, hlength⟩
  · rw [calculate_lines, List.forall₂_map_left_iff]
    exact List.forall₂_same.mpr fun r _ => rfl
  · simp [calculate_warnings]

end Estimate
end TemplateCost
