import Mathlib.Data.List.Nodup
import Mathlib.Data.List.ProdSigma
import TemplateCost.Cost.Currency

/-! # Rate tables over runs

A fresh table is changed by calls, each of which writes one rate or several together. A call that
fails writes nothing. What a table holds is therefore decided by the writes of the calls that
succeeded: the last one between two currencies settles their rates in both directions, and without
one they are the cross rates of the fresh table. No write removes an entry, so a rate is always found.
-/
namespace TemplateCost

inductive RateCall
  | set (change : RateChange)
  | update (changes : List RateChange)

namespace RateCall

def changes : RateCall → List RateChange
  | set change => [change]
  | update changes => changes

def apply (table : RateTable) : RateCall → Except CurrencyError RateTable
  | set change => table.set change
  | update changes => table.update changes

end RateCall

/-- A table together with the writes that have been made, in order. -/
structure RateRun where
  table : RateTable
  written : List RateChange

namespace RateRun

def fresh : RateRun := ⟨.initial, []⟩

/-- A call that fails leaves the table as it is. -/
def step (run : RateRun) (call : RateCall) : RateRun :=
  match call.apply run.table with
  | .ok table => ⟨table, run.written ++ call.changes⟩
  | .error _ => run

def of (calls : List RateCall) : RateRun := calls.foldl step fresh

end RateRun

/-- The change is between these two currencies, in either direction. -/
def RateChange.IsBetween (source target : Currency) (change : RateChange) : Prop :=
  (change.source = source ∧ change.target = target) ∨
    (change.source = target ∧ change.target = source)

instance (source target : Currency) : DecidablePred (RateChange.IsBetween source target) :=
  fun _ => instDecidableOr

/-! ## When a call succeeds -/

namespace RateChange

theorem ne_of_isValid {change : RateChange} (h : change.isValid = true) :
    change.source ≠ change.target := by
  simp only [isValid, Bool.and_eq_true, decide_eq_true_eq] at h
  exact h.1.1

theorem validate_eq_ok_iff {change : RateChange} :
    change.validate = .ok () ↔ change.isValid = true := by
  rw [validate]
  split <;> simp_all

theorem forM_validate_eq_ok_iff {changes : List RateChange} :
    changes.forM validate = .ok () ↔ ∀ change ∈ changes, change.isValid = true := by
  induction changes with
  | nil => simp [pure, Except.pure]
  | cons change rest ih =>
    have hcons : (change :: rest).forM validate =
        change.validate >>= fun _ => rest.forM validate := rfl
    rw [hcons, List.forall_mem_cons, ← ih, ← validate_eq_ok_iff]
    cases h : change.validate with
    | error e => simp [bind, Except.bind]
    | ok u => simp [bind, Except.bind]

end RateChange

/-- A call succeeds iff all its changes are valid, and then writes them in order. -/
theorem RateCall.apply_eq_ok_iff {table result : RateTable} {call : RateCall} :
    call.apply table = .ok result ↔
      (∀ change ∈ call.changes, change.isValid = true) ∧
        call.changes.foldl RateTable.write table = result := by
  cases call with
  | set change =>
    rw [apply, RateTable.set, changes, List.forall_mem_singleton, ← RateChange.validate_eq_ok_iff]
    cases h : change.validate with
    | error e => simp [bind, Except.bind]
    | ok u => simp [bind, Except.bind, pure, Except.pure]
  | update changes =>
    rw [apply, RateTable.update, RateCall.changes, ← RateChange.forM_validate_eq_ok_iff]
    cases h : changes.forM RateChange.validate with
    | error e => simp [bind, Except.bind]
    | ok u => simp [bind, Except.bind, pure, Except.pure]

/-! ## Entries of a table -/

namespace RateTable
variable (table : RateTable)

/-- The pairs that have an entry. -/
def pairs : List (Currency × Currency) := table.rates.map Prod.fst

theorem rate?_put (source target : Currency) (rate : Float) (s t : Currency) :
    (table.put source target rate).rate? s t =
      if (source, target) = (s, t) then some rate else table.rate? s t := by
  rw [put, rate?]
  by_cases h : (source, target) = (s, t)
  · simp [h]
  · have hkept : (table.rates.filter fun entry => entry.1 ≠ (source, target)).find?
        (fun entry => entry.1 = (s, t)) = table.rates.find? fun entry => entry.1 = (s, t) := by
      rw [List.find?_filter]
      congr 1
      funext entry
      by_cases he : entry.1 = (s, t)
      · simp [he, Ne.symm h]
      · simp [he]
    rw [List.find?_cons_of_neg (by simpa using h), hkept, if_neg h, rate?]

/-- A write between two currencies sets their rates in both directions and no other. -/
theorem rate?_write {change : RateChange} (h : change.source ≠ change.target) (s t : Currency) :
    (table.write change).rate? s t =
      if change.IsBetween s t then
        some (if change.source = s then change.rate else 1.0 / change.rate)
      else table.rate? s t := by
  rw [write, rate?_put, rate?_put]
  by_cases hforth : change.source = s ∧ change.target = t
  · obtain ⟨rfl, rfl⟩ := hforth
    simp [RateChange.IsBetween, h.symm]
  · by_cases hback : change.source = t ∧ change.target = s
    · obtain ⟨rfl, rfl⟩ := hback
      simp [RateChange.IsBetween, h]
    · have hforth' : (change.source, change.target) ≠ (s, t) := by simpa using hforth
      have hback' : (change.target, change.source) ≠ (s, t) := by
        intro heq
        obtain ⟨rfl, rfl⟩ := Prod.mk.injEq .. ▸ heq
        exact hback ⟨rfl, rfl⟩
      have hbetween : ¬ change.IsBetween s t := not_or.mpr ⟨hforth, hback⟩
      rw [if_neg hback', if_neg hforth', if_neg hbetween]

theorem pairs_put (source target : Currency) (rate : Float) :
    (table.put source target rate).pairs =
      (source, target) :: table.pairs.filter fun pair => pair ≠ (source, target) := by
  rw [pairs, put, List.map_cons, pairs, List.filter_map]
  rfl

end RateTable

theorem Currency.mem_all (currency : Currency) : currency ∈ Currency.all := by
  cases currency <;> decide

theorem Currency.mem_pairs (pair : Currency × Currency) :
    pair ∈ Currency.all ×ˢ Currency.all :=
  List.mem_product.mpr ⟨mem_all pair.1, mem_all pair.2⟩

theorem Currency.nodup_pairs : (Currency.all ×ˢ Currency.all).Nodup := by decide

/-- Writing an entry that is there already keeps which entries there are. -/
theorem RateTable.pairs_put_perm {table : RateTable}
    (h : table.pairs.Perm (Currency.all ×ˢ Currency.all)) (source target : Currency) (rate : Float) :
    (table.put source target rate).pairs.Perm (Currency.all ×ˢ Currency.all) := by
  have hnodup : table.pairs.Nodup := h.nodup_iff.mpr Currency.nodup_pairs
  have hmem : (source, target) ∈ table.pairs := h.mem_iff.mpr (Currency.mem_pairs _)
  have herase : table.pairs.erase (source, target) =
      table.pairs.filter fun pair => pair ≠ (source, target) := by
    rw [hnodup.erase_eq_filter]
    refine List.filter_congr ?_
    intro pair _
    simp [bne, beq_eq_decide]
  rw [pairs_put, ← herase]
  exact (List.perm_cons_erase hmem).symm.trans h

/-! ## Runs -/

namespace RateRun

/-- The rate that writes leave between two currencies. -/
def settled (written : List RateChange) (source target : Currency) : Float :=
  match written.reverse.find? fun change => change.IsBetween source target with
  | none => RateTable.seeded source target
  | some change => if change.source = source then change.rate else 1.0 / change.rate

/-- The table is what its writes have made of a fresh one. -/
structure Consistent (run : RateRun) : Prop where
  pairs : run.table.pairs.Perm (Currency.all ×ˢ Currency.all)
  distinct : ∀ change ∈ run.written, change.source ≠ change.target
  rates : ∀ source target, run.table.rate? source target = some (settled run.written source target)

theorem consistent_fresh : fresh.Consistent where
  pairs := by decide
  distinct := by simp [fresh]
  rates source target := by cases source <;> cases target <;> rfl

theorem settled_append (written : List RateChange) (change : RateChange)
    (source target : Currency) :
    settled (written ++ [change]) source target =
      if change.IsBetween source target then
        if change.source = source then change.rate else 1.0 / change.rate
      else settled written source target := by
  rw [settled, List.reverse_append, List.reverse_singleton, List.singleton_append, List.find?_cons]
  by_cases h : change.IsBetween source target
  · simp [h]
  · simp [h, settled]

theorem Consistent.write {table : RateTable} {written : List RateChange} {change : RateChange}
    (h : Consistent ⟨table, written⟩) (hne : change.source ≠ change.target) :
    Consistent ⟨table.write change, written ++ [change]⟩ where
  pairs := RateTable.pairs_put_perm (RateTable.pairs_put_perm h.pairs _ _ _) _ _ _
  distinct := by
    intro other ho
    rcases List.mem_append.mp ho with ho | ho
    · exact h.distinct other ho
    · exact List.mem_singleton.mp ho ▸ hne
  rates source target := by
    have hbefore : table.rate? source target = some (settled written source target) :=
      h.rates source target
    rw [RateTable.rate?_write table hne, settled_append, hbefore]
    split <;> rfl

theorem Consistent.writes {table : RateTable} {written changes : List RateChange}
    (h : Consistent ⟨table, written⟩) (hne : ∀ change ∈ changes, change.source ≠ change.target) :
    Consistent ⟨changes.foldl RateTable.write table, written ++ changes⟩ := by
  induction changes generalizing table written with
  | nil => simpa using h
  | cons change rest ih =>
    obtain ⟨hchange, hrest⟩ := List.forall_mem_cons.mp hne
    have := ih (h.write hchange) hrest
    rwa [List.append_assoc] at this

/-- A call writes all its changes, which are valid then, or it fails and writes nothing. -/
theorem step_cases (run : RateRun) (call : RateCall) :
    ((∀ change ∈ call.changes, change.isValid = true) ∧
        run.step call = ⟨call.changes.foldl RateTable.write run.table, run.written ++ call.changes⟩) ∨
      run.step call = run := by
  rw [step]
  split
  · rename_i table happly
    obtain ⟨hvalid, rfl⟩ := RateCall.apply_eq_ok_iff.mp happly
    exact Or.inl ⟨hvalid, rfl⟩
  · exact Or.inr rfl

/-- What every call keeps holds of every run. -/
theorem of_induction {P : RateRun → Prop} (hfresh : P fresh)
    (hstep : ∀ run call, P run → P (run.step call)) (calls : List RateCall) : P (of calls) := by
  have hfold : ∀ run : RateRun, P run → P (calls.foldl RateRun.step run) := by
    induction calls with
    | nil => exact fun run h => h
    | cons call rest ih => exact fun run h => ih (run.step call) (hstep run call h)
  exact hfold fresh hfresh

theorem Consistent.step {run : RateRun} (h : run.Consistent) (call : RateCall) :
    (run.step call).Consistent := by
  rcases step_cases run call with ⟨hvalid, hs⟩ | hs
  · rw [hs]
    exact Consistent.writes h fun change hc => RateChange.ne_of_isValid (hvalid change hc)
  · rwa [hs]

theorem consistent_of (calls : List RateCall) : (of calls).Consistent :=
  of_induction consistent_fresh (fun _ call h => h.step call) calls

/-- Only valid changes are written. -/
theorem isValid_of_mem_written (calls : List RateCall) :
    ∀ change ∈ (of calls).written, change.isValid = true := by
  refine of_induction (P := fun run => ∀ change ∈ run.written, change.isValid = true)
    (by simp [fresh]) ?_ calls
  intro run call h
  rcases step_cases run call with ⟨hvalid, hs⟩ | hs
  · rw [hs]
    intro change hc
    exact (List.mem_append.mp hc).elim (h change) (hvalid change)
  · rwa [hs]

variable {written : List RateChange} {source target : Currency}

theorem find?_reverse_eq_none (h : ∀ change ∈ written, ¬ change.IsBetween source target) :
    written.reverse.find? (fun change => change.IsBetween source target) = none := by
  refine List.find?_eq_none.mpr ?_
  intro change hc
  simpa using h change (List.mem_reverse.mp hc)

theorem settled_of_untouched (h : ∀ change ∈ written, ¬ change.IsBetween source target) :
    settled written source target = RateTable.seeded source target := by
  rw [settled, find?_reverse_eq_none h]

/-- No write is between a currency and itself. -/
theorem settled_self (h : ∀ change ∈ written, change.source ≠ change.target) (currency : Currency) :
    settled written currency currency = 1.0 := by
  have huntouched : ∀ change ∈ written, ¬ change.IsBetween currency currency := by
    intro change hc hbetween
    obtain ⟨rfl, htarget⟩ := or_self_iff.mp hbetween
    exact h change hc htarget.symm
  rw [settled_of_untouched huntouched, RateTable.seeded, if_pos rfl]

theorem settled_of_last {before after : List RateChange} {change : RateChange}
    (hbetween : change.IsBetween source target)
    (hlast : ∀ later ∈ after, ¬ later.IsBetween source target) :
    settled (before ++ change :: after) source target =
      if change.source = source then change.rate else 1.0 / change.rate := by
  have hfound : (before ++ change :: after).reverse.find?
      (fun change => change.IsBetween source target) = some change := by
    rw [List.reverse_append, List.reverse_cons, List.append_assoc, List.find?_append,
      find?_reverse_eq_none hlast, Option.none_or, List.singleton_append,
      List.find?_cons_of_pos (by simpa using hbetween)]
  rw [settled, hfound]

end RateRun

/-! ## What a reachable table answers -/

theorem exists_error_iff {ε α : Type} {outcome : Except ε α} :
    (∃ error, outcome = .error error) ↔ ¬ ∃ a, outcome = .ok a := by
  cases outcome <;> simp

theorem Currency.ofCode_eq_ok_iff {code : String} {currency : Currency} :
    ofCode code = .ok currency ↔ code = currency.code := by
  constructor
  · intro h
    rw [ofCode] at h
    cases hf : all.find? fun other => other.code = code with
    | none =>
      rw [hf] at h
      cases h
    | some found =>
      have hcode : found.code = code := by simpa using List.find?_some hf
      rw [hf] at h
      cases h
      exact hcode.symm
  · rintro rfl
    cases currency <;> rfl

theorem Currency.ofCode_eq_error_iff {code : String} :
    (∃ error, Currency.ofCode code = .error error) ↔ code ∉ Currency.all.map Currency.code := by
  rw [ofCode]
  cases h : all.find? fun currency => currency.code = code with
  | none => simpa [List.find?_eq_none] using h
  | some currency =>
    have hcode : currency.code = code := by simpa using List.find?_some h
    simpa using ⟨currency, mem_all currency, hcode⟩

/-- What is done with two currencies fails on their codes alone if it does not fail on currencies. -/
theorem Currency.ofCodes_eq_error_iff {α : Type} {source target : String}
    {use : Currency → Currency → Except CurrencyError α} (huse : ∀ s t, ∃ a, use s t = .ok a) :
    (∃ error, (do let s ← ofCode source; let t ← ofCode target; use s t) = .error error) ↔
      source ∉ Currency.all.map Currency.code ∨ target ∉ Currency.all.map Currency.code := by
  rw [← ofCode_eq_error_iff, ← ofCode_eq_error_iff]
  cases ofCode source with
  | error e => simp [bind, Except.bind]
  | ok s =>
    cases ofCode target with
    | error e => simp [bind, Except.bind]
    | ok t =>
      obtain ⟨a, ha⟩ := huse s t
      simp [bind, Except.bind, ha]

namespace RateTable

/-- Every pair of currencies has an entry. -/
def Covers (table : RateTable) : Prop := ∀ source target, ∃ rate, table.rate source target = .ok rate

variable {table : RateTable}

theorem rate_eq_ok {source target : Currency} {rate : Float}
    (h : table.rate? source target = some rate) : table.rate source target = .ok rate := by
  rw [RateTable.rate, h]

theorem Covers.convert (h : table.Covers) (amount : Float) (source target : Currency) :
    ∃ converted, table.convert amount source target = .ok converted := by
  rw [RateTable.convert]
  split
  · exact ⟨amount, rfl⟩
  · obtain ⟨rate, hrate⟩ := h source target
    exact ⟨amount * rate, by rw [hrate]; rfl⟩

/-- Only an unsupported code can make a conversion fail. -/
theorem Covers.convertCodes_eq_error_iff (h : table.Covers) (amount : Float)
    (source target : String) :
    (∃ error, table.convertCodes amount source target = .error error) ↔
      source ∉ Currency.all.map Currency.code ∨ target ∉ Currency.all.map Currency.code :=
  Currency.ofCodes_eq_error_iff (h.convert amount)

theorem Covers.convert_estimate_ne (h : table.Covers) (e : Estimate)
    (target missing other : Currency) :
    e.convert table target ≠ .error (.unavailable missing other) := by
  rw [Estimate.convert]
  cases hs : Currency.ofCode e.currency with
  | error error =>
    intro heq
    have herror : error = .unavailable missing other := Except.error.inj heq
    rw [Currency.ofCode] at hs
    split at hs
    · cases hs
    · cases hs
      cases herror
  | ok source =>
    obtain ⟨rate, hrate⟩ := h source target
    by_cases hsame : source = target
    · simp [bind, Except.bind, pure, Except.pure, hsame]
    · simp [bind, Except.bind, pure, Except.pure, hsame, hrate]

end RateTable

/-- After any calls on a fresh table there is one entry for each pair of currencies: 1 for a currency
with itself, the last rate written between two currencies and its inverse, and the cross rate where
none was written. So rates are always found, and only an unsupported code can make a conversion fail. -/
theorem rates_of_calls (calls : List RateCall) :
    let table := (RateRun.of calls).table
    let written := (RateRun.of calls).written
    (table.rates.length = 25 ∧ table.pairs.Perm (Currency.all ×ˢ Currency.all)) ∧
    (∀ currency, table.rate? currency currency = some 1.0) ∧
    (∀ source target, source ≠ target → (∀ change ∈ written, ¬ change.IsBetween source target) →
      table.rate? source target = some (target.perDollar / source.perDollar)) ∧
    (∀ before change after, written = before ++ change :: after →
      (∀ later ∈ after, ¬ later.IsBetween change.source change.target) →
      table.rate? change.source change.target = some change.rate ∧
        table.rate? change.target change.source = some (1.0 / change.rate)) ∧
    (∀ source target, ∃ rate, table.rate source target = .ok rate) ∧
    (∀ amount source target, ∃ converted, table.convert amount source target = .ok converted) ∧
    (∀ (e : Estimate) target missing other,
      e.convert table target ≠ .error (.unavailable missing other)) ∧
    (∀ amount source target,
      (∃ error, table.convertCodes amount source target = .error error) ↔
        source ∉ Currency.all.map Currency.code ∨ target ∉ Currency.all.map Currency.code) := by
  intro table written
  have hrun : (RateRun.of calls).Consistent := RateRun.consistent_of calls
  have hrate : ∀ source target,
      table.rate? source target = some (RateRun.settled written source target) := hrun.rates
  have hcovers : table.Covers := fun source target =>
    ⟨_, RateTable.rate_eq_ok (hrate source target)⟩
  have hlength : table.rates.length = 25 := by
    have hpairs : table.pairs.length = 25 := hrun.pairs.length_eq
    rwa [RateTable.pairs, List.length_map] at hpairs
  refine ⟨⟨hlength, hrun.pairs⟩, ?_, ?_, ?_, hcovers, hcovers.convert, hcovers.convert_estimate_ne,
    hcovers.convertCodes_eq_error_iff⟩
  · intro currency
    rw [hrate, RateRun.settled_self hrun.distinct]
  · intro source target hne huntouched
    rw [hrate, RateRun.settled_of_untouched huntouched, RateTable.seeded, if_neg hne]
  · intro before change after hwritten hlast
    have hne : change.source ≠ change.target := by
      refine hrun.distinct change ?_
      have : change ∈ before ++ change :: after := by simp
      rwa [← hwritten] at this
    have hswap : ∀ later ∈ after, ¬ later.IsBetween change.target change.source :=
      fun later hl hback => hlast later hl hback.symm
    rw [hrate, hrate, hwritten, RateRun.settled_of_last (Or.inl ⟨rfl, rfl⟩) hlast,
      RateRun.settled_of_last (Or.inr ⟨rfl, rfl⟩) hswap, if_pos rfl, if_neg hne]
    exact ⟨rfl, rfl⟩

/-- A rejected rate writes nothing, and in a batch the later of two opposite writes counts. -/
example :
    let table := (RateRun.of [.set ⟨.usd, .cny, 7.5⟩, .set ⟨.usd, .cny, 0.0⟩,
      .update [⟨.usd, .eur, 2.0⟩, ⟨.eur, .usd, 4.0⟩]]).table
    table.rate? .usd .cny = some 7.5 ∧ table.rate? .usd .eur = some 0.25 := by
  decide +kernel

end TemplateCost
