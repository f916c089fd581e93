import TemplateCost.Cost.Estimate

/-! # Runs over resources

A step appends one line to an estimate and never looks at the lines before it. The lines and warnings
of a run are therefore those of its resources in order, and so are the questions that the price
source is asked on the way.
-/
namespace TemplateCost

namespace Resource

/-- The line of a resource, with or without a price. -/
def line (source : PriceSource) (r : Resource) : CostLine :=
  match r.cost source with
  | .ok line => line
  | .error _ => r.unpricedLine

def warnings (source : PriceSource) (r : Resource) : List String :=
  match r.cost source with
  | .ok _ => []
  | .error reason => [r.warning reason]

/-- A resource has a price exactly where the source was asked and answered. -/
theorem cost_eq_ok_iff {source : PriceSource} {r : Resource} {line : CostLine} :
    r.cost source = .ok line ↔
      ∃ q price, r.question = .ok q ∧ source q = .ok price ∧ r.pricedLine price = line := by
  cases hq : r.question with
  | error reason => simp [cost, hq, bind, Except.bind]
  | ok q => cases hs : source q <;> simp [cost, hq, hs, bind, Except.bind]

/-- A cost is the resource's own line for some price, or there is none. -/
theorem available_of_cost {source : PriceSource} {r : Resource} {line : CostLine}
    (h : r.cost source = .ok line) : line.available = true := by
  obtain ⟨_, _, _, _, rfl⟩ := cost_eq_ok_iff.mp h
  rfl

end Resource

namespace Estimate

@[simp] theorem addPriced_lines (e : Estimate) (line : CostLine) :
    (e.addPriced line).lines = e.lines ++ [line] := rfl
@[simp] theorem addPriced_warnings (e : Estimate) (line : CostLine) :
    (e.addPriced line).warnings = e.warnings := rfl
@[simp] theorem addPriced_unavailableCount (e : Estimate) (line : CostLine) :
    (e.addPriced line).unavailableCount = e.unavailableCount := rfl

@[simp] theorem addUnpriced_lines (e : Estimate) (r : Resource) (reason : Unpriced) :
    (e.addUnpriced r reason).lines = e.lines ++ [r.unpricedLine] := rfl
@[simp] theorem addUnpriced_warnings (e : Estimate) (r : Resource) (reason : Unpriced) :
    (e.addUnpriced r reason).warnings = e.warnings ++ [r.warning reason] := rfl
@[simp] theorem addUnpriced_unavailableCount (e : Estimate) (r : Resource) (reason : Unpriced) :
    (e.addUnpriced r reason).unavailableCount = e.unavailableCount + 1 := rfl

/-- The default is written into the currency and nowhere else. -/
theorem withDefaultCurrency_eq (e : Estimate) :
    e.withDefaultCurrency =
      { e with currency := if e.currency = "" then defaultCurrency else e.currency } := by
  unfold withDefaultCurrency
  split <;> rfl

@[simp] theorem withDefaultCurrency_lines (e : Estimate) :
    e.withDefaultCurrency.lines = e.lines := by rw [withDefaultCurrency_eq]
@[simp] theorem withDefaultCurrency_warnings (e : Estimate) :
    e.withDefaultCurrency.warnings = e.warnings := by rw [withDefaultCurrency_eq]
@[simp] theorem withDefaultCurrency_summaries (e : Estimate) :
    e.withDefaultCurrency.summaries = e.summaries := by rw [withDefaultCurrency_eq]
@[simp] theorem withDefaultCurrency_unavailableCount (e : Estimate) :
    e.withDefaultCurrency.unavailableCount = e.unavailableCount := by rw [withDefaultCurrency_eq]

/-- Everything that one step can do: it adds a line with a price, or one without and a warning. -/
theorem step_cases (source : PriceSource) (e : Estimate) (r : Resource) :
    (∃ line, r.cost source = .ok line ∧ line.available = true ∧
        step source e r = e.addPriced line) ∨
      ∃ reason, r.cost source = .error reason ∧ step source e r = e.addUnpriced r reason := by
  cases h : r.cost source with
  | ok line => exact Or.inl ⟨line, rfl, Resource.available_of_cost h, by simp [step, h]⟩
  | error reason => exact Or.inr ⟨reason, rfl, by simp [step, h]⟩

theorem step_lines (source : PriceSource) (e : Estimate) (r : Resource) :
    (step source e r).lines = e.lines ++ [r.line source] := by
  rcases step_cases source e r with ⟨line, hc, _, hs⟩ | ⟨reason, hc, hs⟩
  · rw [hs, Resource.line, hc, addPriced_lines]
  · rw [hs, Resource.line, hc, addUnpriced_lines]

theorem step_warnings (source : PriceSource) (e : Estimate) (r : Resource) :
    (step source e r).warnings = e.warnings ++ r.warnings source := by
  rcases step_cases source e r with ⟨line, hc, _, hs⟩ | ⟨reason, hc, hs⟩
  · rw [hs, Resource.warnings, hc, addPriced_warnings, List.append_nil]
  · rw [hs, Resource.warnings, hc, addUnpriced_warnings]

theorem foldl_step_lines (source : PriceSource) (e : Estimate) (resources : List Resource) :
    (resources.foldl (step source) e).lines = e.lines ++ resources.map (Resource.line source) := by
  induction resources generalizing e with
  | nil => simp
  | cons r rest ih => simpa [step_lines] using ih (step source e r)

theorem foldl_step_warnings (source : PriceSource) (e : Estimate) (resources : List Resource) :
    (resources.foldl (step source) e).warnings =
      e.warnings ++ resources.flatMap (Resource.warnings source) := by
  induction resources generalizing e with
  | nil => simp
  | cons r rest ih => simpa [step_warnings] using ih (step source e r)

theorem calculate_lines (source : PriceSource) (timestamp : String) (resources : List Resource) :
    (calculate source timestamp resources).lines = resources.map (Resource.line source) := by
  rw [calculate, withDefaultCurrency_lines, foldl_step_lines]
  rfl

theorem calculate_warnings (source : PriceSource) (timestamp : String) (resources : List Resource) :
    (calculate source timestamp resources).warnings =
      resources.flatMap (Resource.warnings source) := by
  rw [calculate, withDefaultCurrency_warnings, foldl_step_warnings]
  rfl

/-- What every step keeps holds of every run. -/
theorem foldl_step_induction {P : Estimate → Prop} {source : PriceSource}
    (hstep : ∀ e r, P e → P (step source e r)) {e : Estimate} (he : P e)
    (resources : List Resource) : P (resources.foldl (step source) e) := by
  induction resources generalizing e with
  | nil => exact he
  | cons r rest ih => exact ih (hstep e r he)

end Estimate

/-! ## Questions of a run -/

/-- Computations that ask a price source and keep a record of what it was asked. -/
abbrev Asking := StateM (List PriceQuestion)

def PriceSource.ask (source : PriceSource) (q : PriceQuestion) :
    Asking (Except PricingError Price) := do
  modify fun asked => asked ++ [q]
  pure (source q)

namespace Asking
variable {α β : Type}

/-- The result together with the record, which goes on after what was asked before. -/
def after (asked : List PriceQuestion) (p : Asking α) : α × List PriceQuestion := p.run asked

@[simp] theorem after_pure (asked : List PriceQuestion) (a : α) :
    after asked (pure a) = (a, asked) := rfl
@[simp] theorem after_bind (asked : List PriceQuestion) (p : Asking α) (f : α → Asking β) :
    after asked (p >>= f) = after (after asked p).2 (f (after asked p).1) := rfl
@[simp] theorem after_ask (asked : List PriceQuestion) (source : PriceSource) (q : PriceQuestion) :
    after asked (source.ask q) = (source q, asked ++ [q]) := rfl

end Asking

def Resource.costAsking (source : PriceSource) (r : Resource) : Asking (Except Unpriced CostLine) :=
  match r.question with
  | .error reason => pure (.error reason)
  | .ok q => do
    match ← source.ask q with
    | .ok price => pure (.ok (r.pricedLine price))
    | .error e => pure (.error (.lookup e))

theorem Resource.after_costAsking (asked : List PriceQuestion) (source : PriceSource)
    (r : Resource) :
    (r.costAsking source).after asked = (r.cost source, asked ++ r.question.toOption.toList) := by
  cases hq : r.question with
  | error reason => simp [costAsking, cost, hq, bind, Except.bind, Except.toOption]
  | ok q =>
    cases hs : source q <;> simp [costAsking, hq, hs, Except.toOption] <;>
      simp [cost, hq, hs, bind, Except.bind]

namespace Estimate

def stepAsking (source : PriceSource) (e : Estimate) (r : Resource) : Asking Estimate := do
  match ← r.costAsking source with
  | .ok line => pure (e.addPriced line)
  | .error reason => pure (e.addUnpriced r reason)

def calculateAsking (source : PriceSource) (timestamp : String) (resources : List Resource) :
    Asking Estimate := do
  let e ← resources.foldlM (stepAsking source) (empty timestamp)
  pure e.withDefaultCurrency

theorem after_stepAsking (asked : List PriceQuestion) (source : PriceSource) (e : Estimate)
    (r : Resource) :
    (stepAsking source e r).after asked =
      (step source e r, asked ++ r.question.toOption.toList) := by
  rw [stepAsking, Asking.after_bind, Resource.after_costAsking]
  cases h : r.cost source <;> simp [step, h]

theorem questions_cons (r : Resource) (rest : List Resource) :
    questions (r :: rest) = r.question.toOption.toList ++ questions rest := by
  cases h : r.question.toOption <;> simp [questions, h]

theorem after_foldlM_stepAsking (asked : List PriceQuestion) (source : PriceSource) (e : Estimate)
    (resources : List Resource) :
    (resources.foldlM (stepAsking source) e).after asked =
      (resources.foldl (step source) e, asked ++ questions resources) := by
  induction resources generalizing e asked with
  | nil => simp [questions]
  | cons r rest ih =>
    rw [List.foldlM_cons, Asking.after_bind, after_stepAsking, ih, questions_cons,
      List.append_assoc, List.foldl_cons]

/-- A run with a record gives the same estimate, and the record holds the questions in order. -/
theorem after_calculateAsking (asked : List PriceQuestion) (source : PriceSource)
    (timestamp : String) (resources : List Resource) :
    (calculateAsking source timestamp resources).after asked =
      (calculate source timestamp resources, asked ++ questions resources) := by
  rw [calculateAsking, Asking.after_bind, after_foldlM_stepAsking]
  rfl

end Estimate
end TemplateCost
