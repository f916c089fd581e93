import Mathlib.Data.List.Forall2
import Mathlib.Data.List.Pairwise
import TemplateCost.Proofs.Cost.Run

/-! # Tiers

A quantity takes the tier whose band holds it, and the last tier if no band does. Where bands do not
overlap the order of the tiers only counts for quantities in no band. Bands have both of their ends, so in
a schedule the ends of a band select it, and so does the last band all that is beyond it.
-/
namespace TemplateCost

namespace Tier

/-- The band has no upper end. -/
def IsOpen (tier : Tier) : Prop := tier.most = 0 ∨ tier.most = -1

/-- The quantities in the band. -/
structure Holds (tier : Tier) (quantity : Int64) : Prop where
  least : tier.least ≤ quantity
  most : tier.IsOpen ∨ quantity ≤ tier.most

/-- No quantity is in both bands. -/
def Apart (tier other : Tier) : Prop := ∀ quantity, tier.Holds quantity → ¬ other.Holds quantity

/-- Bands in ascending order that do not overlap; only the last one can be open. -/
structure IsSchedule (tiers : List Tier) : Prop where
  bands : ∀ tier ∈ tiers, tier.IsOpen ∨ tier.least ≤ tier.most
  ascending : tiers.Pairwise fun tier later => ¬ tier.IsOpen ∧ tier.most < later.least

instance (tier : Tier) : Decidable tier.IsOpen :=
  inferInstanceAs (Decidable (tier.most = 0 ∨ tier.most = -1))

instance : Std.Symm Apart := ⟨fun _ _ h quantity hother htier => h quantity htier hother⟩

variable {tiers : List Tier} {tier : Tier} {quantity : Int64}

theorem contains_iff : tier.contains quantity = true ↔ tier.Holds quantity := by
  simp only [contains, isUnbounded, Bool.and_eq_true, Bool.or_eq_true, decide_eq_true_eq]
  exact ⟨fun h => ⟨h.1, h.2⟩, fun h => ⟨h.least, h.most⟩⟩

theorem unitPrice_of_find? (h : tiers.find? (fun tier => tier.contains quantity) = some tier) :
    unitPrice tiers quantity = tier.price := by
  rw [unitPrice, h, Option.some_or, Option.map_some, Option.getD_some]

theorem unitPrice_of_getLast? (h : tiers.find? (fun tier => tier.contains quantity) = none)
    (hlast : tiers.getLast? = some tier) : unitPrice tiers quantity = tier.price := by
  rw [unitPrice, h, Option.none_or, hlast, Option.map_some, Option.getD_some]

/-- Of a schedule with tiers one is charged. -/
theorem unitPrice_mem (hne : tiers ≠ []) (quantity : Int64) :
    ∃ tier ∈ tiers, unitPrice tiers quantity = tier.price := by
  cases hfind : tiers.find? fun tier => tier.contains quantity with
  | some tier => exact ⟨tier, List.mem_of_find?_eq_some hfind, unitPrice_of_find? hfind⟩
  | none =>
    have hlast := List.getLast?_eq_some_getLast hne
    exact ⟨_, List.getLast_mem hne, unitPrice_of_getLast? hfind hlast⟩

/-- A quantity in no band takes the last tier. -/
theorem unitPrice_of_not_holds (h : ∀ other ∈ tiers, ¬ other.Holds quantity)
    (hlast : tiers.getLast? = some tier) : unitPrice tiers quantity = tier.price := by
  refine unitPrice_of_getLast? (List.find?_eq_none.mpr ?_) hlast
  intro other hother hcontains
  exact h other hother (contains_iff.mp hcontains)

/-- Of bands that do not overlap the one that holds the quantity is found. -/
theorem unitPrice_of_holds (h : tiers.Pairwise Apart) (hmem : tier ∈ tiers)
    (hquantity : tier.Holds quantity) : unitPrice tiers quantity = tier.price := by
  have hsome : (tiers.find? fun tier => tier.contains quantity).isSome = true :=
    List.find?_isSome.mpr ⟨tier, hmem, contains_iff.mpr hquantity⟩
  obtain ⟨found, hfound⟩ := Option.isSome_iff_exists.mp hsome
  have hholds : found.Holds quantity := contains_iff.mp (by simpa using List.find?_some hfound)
  -- no other band holds the quantity, so it is this one that is found
  have hsame : found = tier := by
    by_contra hne
    exact h.forall (List.mem_of_find?_eq_some hfound) hmem hne quantity hholds hquantity
  rw [unitPrice_of_find? hfound, hsame]

namespace IsSchedule

theorem pairwise_apart (h : IsSchedule tiers) : tiers.Pairwise Apart := by
  refine h.ascending.imp ?_
  rintro tier later ⟨hclosed, hlt⟩ quantity htier hlater
  have hmost := htier.most.resolve_left hclosed
  exact absurd (Int64.lt_of_le_of_lt hmost hlt) (Int64.not_lt.mpr hlater.least)

theorem holds_least (h : IsSchedule tiers) (hmem : tier ∈ tiers) : tier.Holds tier.least :=
  ⟨Int64.le_refl _, h.bands tier hmem⟩

theorem holds_most (h : IsSchedule tiers) (hmem : tier ∈ tiers) (hclosed : ¬ tier.IsOpen) :
    tier.Holds tier.most :=
  ⟨(h.bands tier hmem).resolve_left hclosed, Or.inr (Int64.le_refl _)⟩

/-- From the least quantity of the last band on, all others are passed. -/
theorem not_holds_of_lt {init : List Tier} {last : Tier} (h : IsSchedule (init ++ [last]))
    (hmem : tier ∈ init) (hle : last.least ≤ quantity) : ¬ tier.Holds quantity := by
  obtain ⟨hclosed, hlt⟩ := (List.pairwise_append.mp h.ascending).2.2 tier hmem last (by simp)
  intro hholds
  have hmost := hholds.most.resolve_left hclosed
  exact absurd (Int64.lt_of_le_of_lt hmost hlt) (Int64.not_lt.mpr hle)

/-- All quantities from the least of the last band on take the last tier. -/
theorem unitPrice_of_last (h : IsSchedule tiers) {last : Tier} (hlast : tiers.getLast? = some last)
    (hle : last.least ≤ quantity) : unitPrice tiers quantity = last.price := by
  obtain ⟨init, rfl⟩ := List.getLast?_eq_some_iff.mp hlast
  by_cases hholds : last.Holds quantity
  · exact unitPrice_of_holds h.pairwise_apart (by simp) hholds
  · have hnone : ∀ tier ∈ init ++ [last], ¬ tier.Holds quantity := by
      intro tier htier
      rcases List.mem_append.mp htier with hinit | hsingle
      · exact h.not_holds_of_lt hinit hle
      · rwa [List.mem_singleton.mp hsingle]
    exact unitPrice_of_not_holds hnone hlast

end IsSchedule
end Tier

/-- In tiers whose bands do not overlap a quantity takes the tier that holds it, in whatever order they
are listed, and the last one listed if none does. In a schedule the least quantity of a band takes its
tier, the greatest one of a band that has one does too, and all that is beyond the last band takes the
last tier. A resource that is priced by tiers is charged the price that its count takes. -/
theorem quantities_take_tiers :
    (∀ tiers : List Tier, tiers.Pairwise Tier.Apart → ∀ quantity,
      (∀ tier ∈ tiers, tier.Holds quantity →
        ∀ others, others.Perm tiers → Tier.unitPrice others quantity = tier.price) ∧
      ((∀ tier ∈ tiers, ¬ tier.Holds quantity) →
        ∀ last, tiers.getLast? = some last → Tier.unitPrice tiers quantity = last.price)) ∧
    (∀ tiers : List Tier, Tier.IsSchedule tiers → tiers.Pairwise Tier.Apart ∧
      (∀ tier ∈ tiers, Tier.unitPrice tiers tier.least = tier.price ∧
        (¬ tier.IsOpen → Tier.unitPrice tiers tier.most = tier.price)) ∧
      ∀ last, tiers.getLast? = some last → ∀ quantity,
        last.least ≤ quantity ∨ ¬ last.IsOpen ∧ last.most < quantity →
          Tier.unitPrice tiers quantity = last.price) ∧
    ∀ (source : PriceSource) (timestamp : String) (resources : List Resource),
      List.Forall₂ (fun line r => ∀ q price, r.question = .ok q → source q = .ok price →
          price.tiers ≠ [] → line.available = true ∧
            line.unitHourly = Tier.unitPrice price.tiers r.count)
        (Estimate.calculate source timestamp resources).lines resources := by
  refine ⟨?_, ?_, ?_⟩
  · intro tiers hapart quantity
    refine ⟨?_, fun hnone last hlast => Tier.unitPrice_of_not_holds hnone hlast⟩
    intro tier hmem hholds others hperm
    have hothers : others.Pairwise Tier.Apart := hapart.perm hperm.symm fun h => Std.Symm.symm _ _ h
    exact Tier.unitPrice_of_holds hothers (hperm.mem_iff.mpr hmem) hholds
  · intro tiers hschedule
    have hapart := hschedule.pairwise_apart
    refine ⟨hapart, ?_, ?_⟩
    · intro tier hmem
      refine ⟨Tier.unitPrice_of_holds hapart hmem (hschedule.holds_least hmem), ?_⟩
      intro hclosed
      exact Tier.unitPrice_of_holds hapart hmem (hschedule.holds_most hmem hclosed)
    · intro last hlast quantity hbeyond
      refine hschedule.unitPrice_of_last hlast ?_
      rcases hbeyond with hle | ⟨hclosed, hlt⟩
      · exact hle
      · have hband := (hschedule.bands last (List.mem_of_getLast? hlast)).resolve_left hclosed
        exact Int64.le_of_lt (Int64.lt_of_le_of_lt hband hlt)
  · intro source timestamp resources
    rw [Estimate.calculate_lines, List.forall₂_map_left_iff]
    refine List.forall₂_same.mpr ?_
    intro r _ q price hq hprice htiers
    have hcost := Resource.cost_eq_ok_iff.mpr ⟨q, price, hq, hprice, rfl⟩
    rw [Resource.line, hcost]
    exact ⟨rfl, by simp [Resource.pricedLine, Price.unitHourly, htiers]⟩

/-- Two bands and all that is beyond them. -/
def requestTiers : List Tier := [⟨1, 5, 0.1⟩, ⟨6, 10, 0.08⟩, ⟨11, -1, 0.05⟩]

theorem request_ends_take_tiers :
    Tier.IsSchedule requestTiers ∧ Tier.unitPrice requestTiers 5 = 0.1 ∧
      Tier.unitPrice requestTiers 6 = 0.08 ∧ Tier.unitPrice requestTiers 1000 = 0.05 ∧
      Tier.unitPrice requestTiers 0 = 0.05 ∧ Tier.unitPrice requestTiers.reverse 6 = 0.08 := by
  have hschedule : Tier.IsSchedule requestTiers := ⟨by decide, by decide⟩
  obtain ⟨hselected, hends, _⟩ := quantities_take_tiers
  obtain ⟨hapart, hband, hlast⟩ := hends requestTiers hschedule
  have hfirst := (hband ⟨1, 5, 0.1⟩ (by simp [requestTiers])).2 (by decide)
  have hsecond := (hband ⟨6, 10, 0.08⟩ (by simp [requestTiers])).1
  have hbeyond := hlast ⟨11, -1, 0.05⟩ rfl 1000 (Or.inl (by decide))
  have hnone := (hselected requestTiers hapart 0).2 ?_ _ rfl
  have hreversed := (hselected requestTiers hapart 6).1 ⟨6, 10, 0.08⟩ (by simp [requestTiers])
    ⟨by decide, Or.inr (by decide)⟩ requestTiers.reverse (List.reverse_perm _)
  · exact ⟨hschedule, hfirst, hsecond, hbeyond, hnone, hreversed⟩
  · intro tier htier hholds
    have hleast : ∀ other ∈ requestTiers, ¬ other.least ≤ 0 := by decide
    exact hleast tier htier hholds.least

end TemplateCost
