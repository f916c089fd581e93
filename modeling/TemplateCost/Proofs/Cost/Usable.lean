import TemplateCost.Proofs.Cost.Rates
import TemplateCost.Proofs.Double.Reciprocal
import TemplateCost.Proofs.Entries

/-! # Usable rates

A rate that is written has been found finite and positive, its inverse has not been looked at. The
inverse is positive all the same, but for a rate up to 2 ^ -1024 it is an infinity. So a table stays
usable exactly as long as no last write between two currencies is as small as that.
-/
namespace TemplateCost
open Double

/-- All rates are finite and positive. -/
def RateTable.Usable (table : RateTable) : Prop :=
  ∀ entry ∈ table.rates, entry.2.isFinite = true ∧ 0 < entry.2

instance (table : RateTable) : Decidable table.Usable := List.decidableBAll _ _

theorem RateTable.mem_rates_iff {table : RateTable} (h : table.pairs.Nodup) {source target : Currency}
    {rate : Float} :
    ((source, target), rate) ∈ table.rates ↔ table.rate? source target = some rate := by
  rw [rate?, Entries.find?_eq_some_iff_of_nodup h]

namespace RateChange

theorem usable_of_isValid {change : RateChange} (h : change.isValid = true) :
    change.rate.isFinite = true ∧ 0 < change.rate := by
  simp only [isValid, Bool.and_eq_true, Bool.not_eq_true', decide_eq_false_iff_not] at h
  obtain ⟨⟨-, hfinite⟩, hnot⟩ := h
  exact ⟨hfinite, pos_of_not_le_zero hfinite hnot⟩

theorem IsBetween.congr {change other : RateChange} {source target : Currency}
    (h : change.IsBetween source target) :
    other.IsBetween change.source change.target ↔ other.IsBetween source target := by
  obtain ⟨hsource, htarget⟩ | ⟨hsource, htarget⟩ := h
  · rw [hsource, htarget]
  · rw [hsource, htarget]
    exact or_comm

end RateChange

theorem RateTable.seeded_usable (source target : Currency) :
    (seeded source target).isFinite = true ∧ 0 < seeded source target := by
  cases source <;> cases target <;> decide +kernel

namespace RateRun

/-- The last write between its two currencies. -/
def IsLast (written : List RateChange) (change : RateChange) : Prop :=
  ∃ before after, written = before ++ change :: after ∧
    ∀ later ∈ after, ¬ later.IsBetween change.source change.target

/-- A rate is a cross rate, the last one written or the inverse of the last one written. -/
theorem settled_cases (written : List RateChange) (source target : Currency) :
    settled written source target = RateTable.seeded source target ∨
      ∃ change, IsLast written change ∧ change.IsBetween source target ∧
        settled written source target =
          if change.source = source then change.rate else 1.0 / change.rate := by
  rw [settled]
  cases h : written.reverse.find? fun change => change.IsBetween source target with
  | none => exact Or.inl rfl
  | some change =>
    obtain ⟨hbetween, after, before, hsplit, hlater⟩ := List.find?_eq_some_iff_append.mp h
    have hbetween' : change.IsBetween source target := by simpa using hbetween
    refine Or.inr ⟨change, ⟨before.reverse, after.reverse, ?_, ?_⟩, hbetween', rfl⟩
    · rw [← List.reverse_reverse written, hsplit]
      simp
    · intro later hl
      rw [hbetween'.congr]
      simpa using hlater later (List.mem_reverse.mp hl)

theorem IsLast.mem {written : List RateChange} {change : RateChange} (h : IsLast written change) :
    change ∈ written := by
  obtain ⟨before, after, rfl, -⟩ := h
  simp

/-- From the target back to the source the last write leaves its inverse. -/
theorem IsLast.settled_back {written : List RateChange} {change : RateChange}
    (h : IsLast written change) (hne : change.source ≠ change.target) :
    settled written change.target change.source = 1.0 / change.rate := by
  obtain ⟨before, after, rfl, hlater⟩ := h
  have hback : ∀ later ∈ after, ¬ later.IsBetween change.target change.source :=
    fun later hl hbetween => hlater later hl hbetween.symm
  rw [settled_of_last (Or.inr ⟨rfl, rfl⟩) hback, if_neg hne]

variable {written : List RateChange} (hvalid : ∀ change ∈ written, change.isValid = true)
include hvalid

theorem settled_pos (source target : Currency) : 0 < settled written source target := by
  rcases settled_cases written source target with hs | ⟨change, hlast, -, hs⟩
  · exact hs ▸ (RateTable.seeded_usable source target).2
  · obtain ⟨hfinite, hpos⟩ := RateChange.usable_of_isValid (hvalid change hlast.mem)
    rw [hs]
    split
    · exact hpos
    · exact reciprocal_pos hfinite hpos

/-- The only rates that are not finite are inverses of too small a rate. -/
theorem settled_isFinite_eq_false_iff (source target : Currency) :
    (settled written source target).isFinite = false ↔
      ∃ change, IsLast written change ∧ change.source = target ∧ change.target = source ∧
        change.rate ≤ reciprocalLimit := by
  constructor
  · intro hinfinite
    rcases settled_cases written source target with hs | ⟨change, hlast, hbetween, hs⟩
    · rw [hs, (RateTable.seeded_usable source target).1] at hinfinite
      cases hinfinite
    · obtain ⟨hfinite, hpos⟩ := RateChange.usable_of_isValid (hvalid change hlast.mem)
      rw [hs] at hinfinite
      split at hinfinite
      · rw [hfinite] at hinfinite
        cases hinfinite
      · rename_i hsource
        obtain ⟨hforth, -⟩ | ⟨hback, htarget⟩ := hbetween
        · exact absurd hforth hsource
        · refine ⟨change, hlast, hback, htarget, ?_⟩
          rw [← Bool.not_eq_true, isFinite_reciprocal_iff hfinite hpos, not_not] at hinfinite
          exact hinfinite
  · rintro ⟨change, hlast, rfl, rfl, hsmall⟩
    have hchange := hvalid change hlast.mem
    obtain ⟨hfinite, hpos⟩ := RateChange.usable_of_isValid hchange
    rw [hlast.settled_back (RateChange.ne_of_isValid hchange), ← Bool.not_eq_true,
      isFinite_reciprocal_iff hfinite hpos, not_not]
    exact hsmall

end RateRun

/-- After any calls on a fresh table all rates are positive, and those that are not finite are the
inverses of last writes up to 2 ^ -1024. Without such a write the table is usable, and every
conversion multiplies by a rate of it. -/
theorem usable_of_calls (calls : List RateCall) :
    let table := (RateRun.of calls).table
    let written := (RateRun.of calls).written
    (∀ entry ∈ table.rates, 0 < entry.2) ∧
    (∀ source target rate, ((source, target), rate) ∈ table.rates →
      (rate.isFinite = false ↔ ∃ change, RateRun.IsLast written change ∧ change.source = target ∧
        change.target = source ∧ change.rate ≤ reciprocalLimit)) ∧
    (table.Usable ↔ ∀ change, RateRun.IsLast written change → ¬ change.rate ≤ reciprocalLimit) ∧
    (∀ amount source target, source ≠ target → ∃ rate, ((source, target), rate) ∈ table.rates ∧
      table.convert amount source target = .ok (amount * rate)) := by
  intro table written
  have hrun : (RateRun.of calls).Consistent := RateRun.consistent_of calls
  have hvalid : ∀ change ∈ written, change.isValid = true := RateRun.isValid_of_mem_written calls
  have hmem : ∀ source target rate, ((source, target), rate) ∈ table.rates ↔
      RateRun.settled written source target = rate := by
    intro source target rate
    have hnodup : table.pairs.Nodup := hrun.pairs.nodup_iff.mpr Currency.nodup_pairs
    rw [RateTable.mem_rates_iff hnodup, hrun.rates, Option.some_inj]
  have hpos : ∀ entry ∈ table.rates, 0 < entry.2 := by
    rintro ⟨⟨source, target⟩, rate⟩ hentry
    obtain rfl := (hmem source target rate).mp hentry
    exact RateRun.settled_pos hvalid source target
  have hinfinite : ∀ source target rate, ((source, target), rate) ∈ table.rates →
      (rate.isFinite = false ↔ ∃ change, RateRun.IsLast written change ∧ change.source = target ∧
        change.target = source ∧ change.rate ≤ reciprocalLimit) := by
    intro source target rate hentry
    obtain rfl := (hmem source target rate).mp hentry
    exact RateRun.settled_isFinite_eq_false_iff hvalid source target
  refine ⟨hpos, hinfinite, ⟨?_, ?_⟩, ?_⟩
  · intro husable change hlast hsmall
    have hentry := (hmem change.target change.source _).mpr rfl
    have hfalse := (hinfinite _ _ _ hentry).mpr ⟨change, hlast, rfl, rfl, hsmall⟩
    rw [(husable _ hentry).1] at hfalse
    cases hfalse
  · rintro hlarge ⟨⟨source, target⟩, rate⟩ hentry
    refine ⟨?_, hpos _ hentry⟩
    by_contra hfalse
    obtain ⟨change, hlast, -, -, hsmall⟩ :=
      (hinfinite source target rate hentry).mp (Bool.not_eq_true _ ▸ hfalse)
    exact hlarge change hlast hsmall
  · intro amount source target hne
    refine ⟨_, (hmem source target _).mpr rfl, ?_⟩
    rw [RateTable.convert, if_neg hne, RateTable.rate_eq_ok (hrun.rates source target)]
    rfl

/-- A small rate is accepted, and its inverse is an infinity. -/
theorem small_rate_unusable :
    ¬ ∀ calls : List RateCall, (RateRun.of calls).table.Usable := by
  intro h
  exact absurd (h [.set ⟨.usd, .cny, 1e-310⟩]) (by decide +kernel)

end TemplateCost
