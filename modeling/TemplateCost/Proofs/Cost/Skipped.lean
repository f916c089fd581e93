import TemplateCost.Proofs.Cost.Isolation
import TemplateCost.Proofs.Loading.Assembly
import TemplateCost.Proofs.Template.Open

/-! # Resources that are left out of the sums

A resource without a price adds a line of zeros and a warning to an estimate and leaves its sums, its
currency and its summaries as they would be without the resource. This is what happens to an instance
whose type is open, in whatever way: nothing is asked for it.
-/
namespace TemplateCost
open Template

namespace Estimate

/-- What is added up over the lines with a price is the same. -/
structure SameSums (e other : Estimate) : Prop where
  totalHourly : e.totalHourly = other.totalHourly
  totalMonthly : e.totalMonthly = other.totalMonthly
  currency : e.currency = other.currency
  summaries : e.summaries = other.summaries

namespace SameSums
variable {e other : Estimate}

theorem refl (e : Estimate) : e.SameSums e := ⟨rfl, rfl, rfl, rfl⟩

theorem addUnpriced_left (h : e.SameSums other) (r : Resource) (reason : Unpriced) :
    (e.addUnpriced r reason).SameSums other :=
  ⟨h.totalHourly, h.totalMonthly, h.currency, h.summaries⟩

theorem addUnpriced (h : e.SameSums other) (r : Resource) (reason : Unpriced) :
    (e.addUnpriced r reason).SameSums (other.addUnpriced r reason) :=
  ⟨h.totalHourly, h.totalMonthly, h.currency, h.summaries⟩

theorem addPriced (h : e.SameSums other) (line : CostLine) :
    (e.addPriced line).SameSums (other.addPriced line) where
  totalHourly := congrArg (· + line.totalHourly) h.totalHourly
  totalMonthly := congrArg (· + line.totalMonthly) h.totalMonthly
  currency := by simp [Estimate.addPriced, h.currency]
  summaries := by simp [Estimate.addPriced, h.summaries]

theorem step (h : e.SameSums other) (source : PriceSource) (r : Resource) :
    (step source e r).SameSums (Estimate.step source other r) := by
  cases hcost : r.cost source with
  | ok line => simpa [Estimate.step, hcost] using h.addPriced line
  | error reason => simpa [Estimate.step, hcost] using h.addUnpriced r reason

theorem foldl_step (h : e.SameSums other) (source : PriceSource) (resources : List Resource) :
    (resources.foldl (Estimate.step source) e).SameSums
      (resources.foldl (Estimate.step source) other) := by
  induction resources generalizing e other with
  | nil => exact h
  | cons r rest ih => exact ih (h.step source r)

theorem withDefaultCurrency (h : e.SameSums other) :
    e.withDefaultCurrency.SameSums other.withDefaultCurrency := by
  rw [withDefaultCurrency_eq, withDefaultCurrency_eq]
  refine ⟨h.totalHourly, h.totalMonthly, ?_, h.summaries⟩
  simp only [h.currency]

end SameSums

variable {source : PriceSource} {r : Resource} {reason : Unpriced}

/-- The sums of a run are those of the run without a resource that has no price. -/
theorem calculate_sameSums_of_unpriced (h : r.cost source = .error reason) (timestamp : String)
    (before after : List Resource) :
    (calculate source timestamp (before ++ r :: after)).SameSums
      (calculate source timestamp (before ++ after)) := by
  rw [calculate, calculate, List.foldl_append, List.foldl_append, List.foldl_cons]
  refine SameSums.withDefaultCurrency (SameSums.foldl_step ?_ source after)
  rw [step, h]
  exact (SameSums.refl _).addUnpriced_left r reason

theorem calculate_unavailableCount (source : PriceSource) (timestamp : String)
    (resources : List Resource) :
    (calculate source timestamp resources).unavailableCount =
      (resources.flatMap (Resource.warnings source)).length := by
  rw [(calculate_balanced source timestamp resources).warned, calculate_warnings]

theorem questions_append (resources others : List Resource) :
    questions (resources ++ others) = questions resources ++ questions others :=
  List.filterMap_append

end Estimate

namespace Resource

theorem isResolved_eq_false {text : String} (h : Text.IsMarked text) : isResolved text = false := by
  have hmark : Text.contains ['$', '{'] text.toList = true := Text.contains_iff_isInfix.mpr h
  simp [isResolved, unresolvedMarks, hmark]

/-- An open instance type is no key of a price. -/
theorem question_of_isOpen {env : Environment} {regions : Entries String} {block : Block}
    {r : Resource} (htyped : r.type ∈ instanceTyped) (hof : ofBlock? env regions block = some r)
    (hopen : ∀ e, ("instance_type", e) ∈ block.body.attributes → e.IsOpen env) :
    r.question = .error .unresolvedInstanceType := by
  obtain ⟨_, _, _, hattributes, _⟩ := ofBlock?_eq_some_iff.mp hof
  have hunresolved : ∀ text, r.text? "instance_type" = some text → isResolved text = false := by
    intro text htext
    rw [text?, hattributes] at htext
    exact isResolved_eq_false (Body.isMarked_of_isOpen hopen htext)
  rw [question, pricingKey, if_pos (List.contains_iff_mem.mpr htyped)]
  cases htext : r.text? "instance_type" with
  | none => rfl
  | some text => simp [hunresolved text htext, Except.map]

end Resource

/-- An instance with an open type beside the same resources without it: nothing is asked for it, its
line is one of zeros, it has one warning, and nothing that is added up changes. -/
theorem open_instance_type_unpriced {env : Environment} {regions : Entries String} {block : Block}
    {r : Resource} (htyped : r.type ∈ instanceTyped)
    (hof : Resource.ofBlock? env regions block = some r)
    (hopen : ∀ e, ("instance_type", e) ∈ block.body.attributes → e.IsOpen env)
    (source : PriceSource) (timestamp : String) (before after : List Resource) :
    let whole := (Estimate.calculateAsking source timestamp (before ++ r :: after)).after []
    let without := (Estimate.calculateAsking source timestamp (before ++ after)).after []
    let first := Estimate.calculate source timestamp before
    let last := Estimate.calculate source timestamp after
    whole.2 = without.2 ∧
    whole.1.SameSums without.1 ∧
    whole.1.unavailableCount = without.1.unavailableCount + 1 ∧
    without.1.lines = first.lines ++ last.lines ∧
    without.1.warnings = first.warnings ++ last.warnings ∧
    whole.1.warnings =
      first.warnings ++ r.warning .unresolvedInstanceType :: last.warnings ∧
    ∃ line, whole.1.lines = first.lines ++ line :: last.lines ∧
      line.resourceType = r.type ∧ line.resourceName = r.name ∧ line.available = false ∧
      line.unitHourly = 0 ∧ line.unitMonthly = 0 ∧ line.totalHourly = 0 ∧ line.totalMonthly = 0 := by
  have hquestion := Resource.question_of_isOpen htyped hof hopen
  have hcost : r.cost source = .error .unresolvedInstanceType := by
    simp [Resource.cost, hquestion, bind, Except.bind]
  have hwarnings : r.warnings source = [r.warning .unresolvedInstanceType] := by
    rw [Resource.warnings, hcost]
  have hline : r.line source = r.unpricedLine := by
    rw [Resource.line, hcost]
  simp only [Estimate.after_calculateAsking, List.nil_append]
  refine ⟨?_, Estimate.calculate_sameSums_of_unpriced hcost timestamp before after, ?_, ?_, ?_, ?_,
    r.unpricedLine, ?_, rfl, rfl, rfl, rfl, rfl, rfl, rfl⟩
  · rw [Estimate.questions_append, Estimate.questions_append, Estimate.questions_cons, hquestion]
    rfl
  · simp only [Estimate.calculate_unavailableCount, List.flatMap_append, List.flatMap_cons,
      List.length_append, hwarnings, List.length_singleton]
    omega
  · simp only [Estimate.calculate_lines, List.map_append]
  · simp only [Estimate.calculate_warnings, List.flatMap_append]
  · simp only [Estimate.calculate_warnings, List.flatMap_append, List.flatMap_cons, hwarnings,
      List.singleton_append]
  · simp only [Estimate.calculate_lines, List.map_append, List.map_cons, hline]

/-- An instance type behind a condition on the tier, in quoted text with a reference to the size. -/
def instanceType : Expr :=
  .conditional (.parens (.binary .equal (.variable "tier") (.string "small")))
    (.parens (.quoted [.literal "t3.",
      .interpolation (.traversal (.variable "var") [.member "size"])]))
    (.string "m5.large")

theorem instance_without_size_unpriced :
    let env : Environment := [("tier", .string "small")]
    let block : Block :=
      .mk "resource" ["aws_instance", "web"] (.mk [("instance_type", instanceType)] [])
    ∃ r, Resource.ofBlock? env [] block = some r ∧ r.type ∈ instanceTyped ∧
      instanceType.IsOpen env ∧
      ∀ source timestamp others, (Estimate.calculate source timestamp (r :: others)).SameSums
        (Estimate.calculate source timestamp others) := by
  intro env block
  have hextracted : (Resource.ofBlock? env [] block).map Resource.type = some "aws_instance" := by
    decide +kernel
  obtain ⟨r, hof, htype⟩ := Option.map_eq_some_iff.mp hextracted
  have htyped : r.type ∈ instanceTyped := by
    rw [htype]
    decide
  have hopen : instanceType.IsOpen env := by
    have hsmall : Expr.Decides env
        (.parens (.binary .equal (.variable "tier") (.string "small"))) true :=
      (Expr.condition_eq_ok_iff _ _).mp rfl
    have hsize : (Element.interpolation
        (.traversal (.variable "var") [.member "size"])).IsOpen env :=
      .unbound rfl (by decide +kernel)
    exact .yes hsmall (.parens (.quoted (List.mem_of_getLast? rfl) hsize))
  refine ⟨r, hof, htyped, hopen, ?_⟩
  intro source timestamp others
  have hunpriced := open_instance_type_unpriced htyped hof
    (fun e hmem => (Prod.mk.inj (List.mem_singleton.mp hmem)).2 ▸ hopen) source timestamp [] others
  simpa only [Estimate.after_calculateAsking, List.nil_append] using hunpriced.2.1

end TemplateCost
