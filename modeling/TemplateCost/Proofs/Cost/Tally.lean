import TemplateCost.Proofs.Cost.Run
import TemplateCost.Proofs.Entries

/-! # Aggregates of an estimate

Totals, summaries by provider and the currency are functions of the lines with a price: sums from
zero in the order of the lines, by provider or over all of them. A line without a provider counts for
"unknown". Every step keeps the aggregates in agreement with the lines, whatever the order in which
providers come and whatever stands between them.
-/
namespace TemplateCost

namespace CostLine

/-- The sum of an amount, added up in the order of the lines. -/
def sumOf (amount : CostLine → Float) (lines : List CostLine) : Float :=
  lines.foldl (fun total line => total + amount line) 0

/-- The first currency with a name. -/
def firstCurrency? (lines : List CostLine) : Option String :=
  (lines.map CostLine.currency).find? (· ≠ "")

/-- A line counts for its provider, and for "unknown" if it has none. -/
def CountsFor (line : CostLine) (key : String) : Prop :=
  (line.provider ≠ "" ∧ line.provider = key) ∨ (line.provider = "" ∧ key = "unknown")

instance (line : CostLine) (key : String) : Decidable (line.CountsFor key) :=
  inferInstanceAs (Decidable ((line.provider ≠ "" ∧ line.provider = key) ∨
    (line.provider = "" ∧ key = "unknown")))

/-- The lines that count for a provider, in their order. -/
def countedFor (key : String) (lines : List CostLine) : List CostLine :=
  lines.filter fun line => line.CountsFor key

theorem countsFor_iff {line : CostLine} {key : String} :
    line.CountsFor key ↔ line.summaryKey = key := by
  by_cases h : line.provider = "" <;> simp [CountsFor, summaryKey, h, eq_comm]

theorem sumOf_append (amount : CostLine → Float) (lines : List CostLine) (line : CostLine) :
    sumOf amount (lines ++ [line]) = sumOf amount lines + amount line := by
  rw [sumOf, List.foldl_append]
  rfl

theorem firstCurrency?_append (lines : List CostLine) (line : CostLine) :
    firstCurrency? (lines ++ [line]) =
      (firstCurrency? lines).or (if line.currency = "" then none else some line.currency) := by
  by_cases h : line.currency = "" <;> simp [firstCurrency?, List.find?_append, h]

theorem countedFor_append (key : String) (lines : List CostLine) (line : CostLine) :
    countedFor key (lines ++ [line]) =
      countedFor key lines ++ if line.CountsFor key then [line] else [] := by
  by_cases h : line.CountsFor key <;> simp [countedFor, List.filter_append, h]

end CostLine

/-- What the lines of one provider add up to; there is no summary of no lines. -/
def ProviderSummary.ofLines? (key : String) : List CostLine → Option ProviderSummary
  | [] => none
  | first :: rest => some {
      provider := key
      totalHourly := CostLine.sumOf CostLine.totalHourly (first :: rest)
      totalMonthly := CostLine.sumOf CostLine.totalMonthly (first :: rest)
      currency := first.currency
      resourceCount := (first :: rest).length }

theorem ProviderSummary.ofLines?_append (key : String) (lines : List CostLine) (line : CostLine) :
    ofLines? key (lines ++ [line]) =
      some (((ofLines? key lines).getD (.start key line.currency)).add line) := by
  cases lines with
  | nil => rfl
  | cons first rest =>
    have hh := CostLine.sumOf_append CostLine.totalHourly (first :: rest) line
    have hm := CostLine.sumOf_append CostLine.totalMonthly (first :: rest) line
    rw [List.cons_append] at hh hm
    simp [ofLines?, add, hh, hm]

namespace Estimate

def pricedLines (e : Estimate) : List CostLine := e.lines.filter CostLine.available

/-- The aggregates are those of the lines with a price. -/
structure Tallied (e : Estimate) : Prop where
  totalHourly : e.totalHourly = CostLine.sumOf CostLine.totalHourly e.pricedLines
  totalMonthly : e.totalMonthly = CostLine.sumOf CostLine.totalMonthly e.pricedLines
  currency : e.currency = (CostLine.firstCurrency? e.pricedLines).getD ""
  sorted : e.summaries.Sorted
  summary : ∀ key, e.summaries.get? key =
    ProviderSummary.ofLines? key (CostLine.countedFor key e.pricedLines)

theorem pricedLines_addPriced {line : CostLine} (h : line.available = true) (e : Estimate) :
    (e.addPriced line).pricedLines = e.pricedLines ++ [line] := by
  simp [pricedLines, h]

theorem pricedLines_addUnpriced (e : Estimate) (r : Resource) (reason : Unpriced) :
    (e.addUnpriced r reason).pricedLines = e.pricedLines := by
  simp [pricedLines, Resource.unpricedLine]

theorem tallied_empty (timestamp : String) : (empty timestamp).Tallied where
  totalHourly := rfl
  totalMonthly := rfl
  currency := rfl
  sorted := Entries.sorted_nil
  summary _ := rfl

theorem Tallied.addPriced {e : Estimate} (h : e.Tallied) {line : CostLine}
    (hl : line.available = true) : (e.addPriced line).Tallied where
  totalHourly := by
    rw [pricedLines_addPriced hl, CostLine.sumOf_append, ← h.totalHourly]
    rfl
  totalMonthly := by
    rw [pricedLines_addPriced hl, CostLine.sumOf_append, ← h.totalMonthly]
    rfl
  currency := by
    rw [pricedLines_addPriced hl, CostLine.firstCurrency?_append]
    have hstep : (e.addPriced line).currency =
      if e.currency = "" then line.currency else e.currency := rfl
    rw [hstep, h.currency]
    cases hf : CostLine.firstCurrency? e.pricedLines with
    | none => by_cases hc : line.currency = "" <;> simp [hc]
    | some code =>
      have hne : code ≠ "" := by simpa using List.find?_some hf
      simp [hne]
  sorted := Entries.sorted_insert _ _ h.sorted
  summary key := by
    rw [pricedLines_addPriced hl, CostLine.countedFor_append]
    have hstep : (e.addPriced line).summaries = e.summaries.insert line.summaryKey
      (((e.summaries.get? line.summaryKey).getD (.start line.summaryKey line.currency)).add line) := rfl
    rw [hstep, Entries.get?_insert]
    by_cases hk : line.summaryKey = key
    · rw [if_pos hk, if_pos (CostLine.countsFor_iff.mpr hk), hk, ProviderSummary.ofLines?_append,
        ← h.summary]
    · rw [if_neg hk, if_neg (mt CostLine.countsFor_iff.mp hk), List.append_nil, h.summary]

theorem Tallied.addUnpriced {e : Estimate} (h : e.Tallied) (r : Resource) (reason : Unpriced) :
    (e.addUnpriced r reason).Tallied := by
  have hp := pricedLines_addUnpriced e r reason
  exact ⟨by rw [hp]; exact h.totalHourly, by rw [hp]; exact h.totalMonthly,
    by rw [hp]; exact h.currency, h.sorted, fun key => by rw [hp]; exact h.summary key⟩

theorem Tallied.step {e : Estimate} (h : e.Tallied) (source : PriceSource) (r : Resource) :
    (step source e r).Tallied := by
  rcases step_cases source e r with ⟨line, _, hl, hs⟩ | ⟨reason, _, hs⟩
  · exact hs ▸ h.addPriced hl
  · exact hs ▸ h.addUnpriced r reason

theorem tallied_foldl_step (source : PriceSource) (timestamp : String) (resources : List Resource) :
    (resources.foldl (Estimate.step source) (empty timestamp)).Tallied :=
  foldl_step_induction (fun _ r h => h.step source r) (tallied_empty timestamp) resources

/-- A currency without a name becomes the default one. -/
theorem Tallied.withDefaultCurrency_currency {e : Estimate} (h : e.Tallied) :
    e.withDefaultCurrency.currency =
      (CostLine.firstCurrency? e.pricedLines).getD defaultCurrency := by
  have hc := h.currency
  cases hf : CostLine.firstCurrency? e.pricedLines with
  | none =>
    rw [hf, Option.getD_none] at hc
    rw [withDefaultCurrency, if_pos hc]
    rfl
  | some code =>
    have hne : code ≠ "" := by simpa using List.find?_some hf
    rw [hf, Option.getD_some] at hc
    rw [withDefaultCurrency, if_neg (hc ▸ hne), hc]
    rfl

@[simp] theorem withDefaultCurrency_totalHourly (e : Estimate) :
    e.withDefaultCurrency.totalHourly = e.totalHourly := by rw [withDefaultCurrency_eq]
@[simp] theorem withDefaultCurrency_totalMonthly (e : Estimate) :
    e.withDefaultCurrency.totalMonthly = e.totalMonthly := by rw [withDefaultCurrency_eq]
@[simp] theorem withDefaultCurrency_pricedLines (e : Estimate) :
    e.withDefaultCurrency.pricedLines = e.pricedLines := by
  simp [pricedLines]

theorem ofLines?_isSome_iff {key : String} {lines : List CostLine} :
    (ProviderSummary.ofLines? key (CostLine.countedFor key lines)).isSome ↔
      ∃ line ∈ lines, line.CountsFor key := by
  cases h : CostLine.countedFor key lines with
  | nil =>
    have hnone : ∀ line ∈ lines, ¬ line.CountsFor key := by
      simpa [CostLine.countedFor] using h
    simpa [ProviderSummary.ofLines?] using hnone
  | cons first rest =>
    have hmem : first ∈ CostLine.countedFor key lines := by rw [h]; exact List.mem_cons_self
    obtain ⟨hl, hk⟩ := List.mem_filter.mp hmem
    exact ⟨fun _ => ⟨first, hl, by simpa using hk⟩, fun _ => rfl⟩

/-- An estimate says of its priced lines what they add up to: totals over all of them, one summary for
each provider that has some, and the first currency with a name, or else the dollar. -/
theorem calculate_aggregates (source : PriceSource) (timestamp : String)
    (resources : List Resource) :
    let e := calculate source timestamp resources
    e.totalHourly = CostLine.sumOf CostLine.totalHourly e.pricedLines ∧
    e.totalMonthly = CostLine.sumOf CostLine.totalMonthly e.pricedLines ∧
    e.summaries.Sorted ∧
    (∀ key, key ∈ e.summaries.keys ↔ ∃ line ∈ e.pricedLines, line.CountsFor key) ∧
    (∀ key, e.summaries.get? key =
      ProviderSummary.ofLines? key (CostLine.countedFor key e.pricedLines)) ∧
    e.currency = (CostLine.firstCurrency? e.pricedLines).getD "USD" := by
  have h := tallied_foldl_step source timestamp resources
  simp only [calculate, withDefaultCurrency_totalHourly, withDefaultCurrency_totalMonthly,
    withDefaultCurrency_summaries, withDefaultCurrency_pricedLines]
  refine ⟨h.totalHourly, h.totalMonthly, h.sorted, ?_, h.summary, h.withDefaultCurrency_currency⟩
  intro key
  rw [Entries.mem_keys_iff, h.summary, ofLines?_isSome_iff]

end Estimate
end TemplateCost
