import Mathlib.Data.List.Forall2
import TemplateCost.Config
import TemplateCost.Proofs.Cost.Rates

/-! # Rates written in place

A table that is shared is changed in place, entry by entry, and an entry written before an error would
stay. Batches and configured rates are restated here as such computations, and found to leave the
tables that the pure functions give: nothing is written before everything that can fail has succeeded.
-/
namespace TemplateCost

/-- Computations on a table in place. An error leaves the table as it is at that moment. -/
abbrev Writing (ε : Type) := ExceptT ε (StateM RateTable)

namespace Writing
variable {ε δ α β : Type} (table : RateTable)

/-- The outcome and the table that is left. -/
def runOn (p : Writing ε α) : Except ε α × RateTable := (ExceptT.run p).run table

/-- A check, which writes nothing. -/
def of (outcome : Except ε α) : Writing ε α := ExceptT.mk (pure outcome)

theorem runOn_of (outcome : Except ε α) : runOn table (of outcome) = (outcome, table) := rfl

/-- After an error nothing more is done. -/
theorem runOn_bind (p : Writing ε α) (f : α → Writing ε β) :
    runOn table (p >>= f) =
      match runOn table p with
      | (.ok a, left) => runOn left (f a)
      | (.error e, left) => (.error e, left) := by
  rw [runOn, ExceptT.run_bind, StateT.run_bind]
  rcases h : runOn table p with ⟨_ | a, left⟩ <;>
    · rw [runOn] at h
      simp only [h]
      rfl

theorem runOn_adapt (f : ε → δ) (p : Writing ε α) :
    runOn table (ExceptT.adapt f p : Writing δ α) =
      ((runOn table p).1.mapError f, (runOn table p).2) := rfl

end Writing

/-- What is left of an attempt to change the table. -/
def RateTable.after {ε : Type} (table : RateTable) : Except ε RateTable → Except ε Unit × RateTable
  | .ok result => (.ok (), result)
  | .error e => (.error e, table)

/-! ## Batches in place -/

namespace RateChange
open Writing

/-- Both directions, one after the other. -/
def entering (change : RateChange) : Writing CurrencyError Unit := do
  modify fun table => table.put change.source change.target change.rate
  modify fun table => table.put change.target change.source (1.0 / change.rate)

def updating (changes : List RateChange) : Writing CurrencyError Unit := do
  changes.forM fun change => of change.validate
  changes.forM entering

variable (table : RateTable)

theorem runOn_entering (change : RateChange) :
    runOn table change.entering = (.ok (), table.write change) := rfl

theorem runOn_forM_validate (changes : List RateChange) :
    runOn table (changes.forM fun change => of change.validate) =
      (changes.forM validate, table) := by
  induction changes with
  | nil => rfl
  | cons change rest ih =>
    rw [List.forM, List.forM, runOn_bind, runOn_of]
    cases change.validate with
    | error e => rfl
    | ok u => exact ih

theorem runOn_forM_entering (changes : List RateChange) :
    runOn table (changes.forM entering) = (.ok (), changes.foldl RateTable.write table) := by
  induction changes generalizing table with
  | nil => rfl
  | cons change rest ih =>
    rw [List.forM, runOn_bind, runOn_entering]
    exact ih _

theorem runOn_updating (changes : List RateChange) :
    runOn table (updating changes) = table.after (table.update changes) := by
  rw [updating, runOn_bind, runOn_forM_validate, RateTable.update]
  cases changes.forM validate with
  | error e => rfl
  | ok u => exact runOn_forM_entering table changes

end RateChange

/-! ## What fails -/

/-- A run over a list fails at the first item that fails. -/
theorem forM_eq_error_iff {ε α : Type} {f : α → Except ε Unit} {items : List α} {error : ε} :
    items.forM f = .error error ↔ ∃ before a after, items = before ++ a :: after ∧
      (∀ earlier ∈ before, f earlier = .ok ()) ∧ f a = .error error := by
  constructor
  · intro h
    induction items with
    | nil => cases h
    | cons a rest ih =>
      rw [List.forM] at h
      cases ha : f a with
      | error e =>
        rw [ha] at h
        cases h
        exact ⟨[], a, rest, rfl, by simp, ha⟩
      | ok u =>
        rw [ha] at h
        obtain ⟨before, b, after, rfl, hbefore, hb⟩ := ih h
        exact ⟨a :: before, b, after, rfl, List.forall_mem_cons.mpr ⟨ha, hbefore⟩, hb⟩
  · rintro ⟨before, a, after, rfl, hbefore, ha⟩
    -- what stands before the failing item succeeds and drops out
    induction before with
    | nil =>
      rw [List.nil_append, List.forM, ha]
      rfl
    | cons earlier rest ih =>
      obtain ⟨hearlier, hrest⟩ := List.forall_mem_cons.mp hbefore
      rw [List.cons_append, List.forM, hearlier]
      exact ih hrest

namespace RateTable
variable {table : RateTable}

theorem set_eq_ok_iff {change : RateChange} {result : RateTable} :
    table.set change = .ok result ↔ change.isValid = true ∧ table.write change = result := by
  refine (@RateCall.apply_eq_ok_iff table result (.set change)).trans ?_
  simp [RateCall.changes]

theorem update_eq_ok_iff {changes : List RateChange} {result : RateTable} :
    table.update changes = .ok result ↔
      (∀ change ∈ changes, change.isValid = true) ∧ changes.foldl write table = result :=
  @RateCall.apply_eq_ok_iff table result (.update changes)

/-- Valid changes can as well be written one by one. -/
theorem foldlM_set {changes : List RateChange} (h : ∀ change ∈ changes, change.isValid = true)
    (table : RateTable) : changes.foldlM set table = .ok (changes.foldl write table) := by
  induction changes generalizing table with
  | nil => rfl
  | cons change rest ih =>
    obtain ⟨hchange, hrest⟩ := List.forall_mem_cons.mp h
    rw [List.foldlM_cons, set_eq_ok_iff.mpr ⟨hchange, rfl⟩]
    exact ih hrest (table.write change)

theorem update_fails_iff {changes : List RateChange} :
    (∃ error, table.update changes = .error error) ↔
      ∃ change ∈ changes, ∃ error, table.set change = .error error := by
  simp [exists_error_iff, set_eq_ok_iff, update_eq_ok_iff]

theorem set_eq_error_iff {change : RateChange} {error : CurrencyError} :
    table.set change = .error error ↔ change.validate = .error error := by
  rw [set]
  cases change.validate <;> simp [bind, Except.bind, pure, Except.pure]

/-- The first change that is rejected decides the error. -/
theorem update_eq_error_iff {changes : List RateChange} {error : CurrencyError} :
    table.update changes = .error error ↔
      ∃ before change after, changes = before ++ change :: after ∧
        (∀ earlier ∈ before, ∃ result, table.set earlier = .ok result) ∧
        table.set change = .error error := by
  have hforM : table.update changes = .error error ↔
      changes.forM RateChange.validate = .error error := by
    rw [update]
    cases changes.forM RateChange.validate <;> simp [bind, Except.bind, pure, Except.pure]
  simp only [hforM, forM_eq_error_iff, RateChange.validate_eq_ok_iff, set_eq_error_iff,
    set_eq_ok_iff, exists_and_left, exists_eq', and_true]

end RateTable

/-! ## Configured rates -/

section
variable {ε α β : Type} {f : α → Except ε β}

theorem mapM_fails_iff {items : List α} :
    (∃ error, items.mapM f = .error error) ↔ ∃ a ∈ items, ∃ error, f a = .error error := by
  induction items with
  | nil => simp [pure, Except.pure]
  | cons a rest ih =>
    rw [List.exists_mem_cons_iff, ← ih, List.mapM_cons]
    cases f a with
    | error e => simp [bind, Except.bind]
    | ok b => cases rest.mapM f <;> simp [bind, Except.bind, pure, Except.pure]

/-- What a run over a list gives, item by item. -/
theorem forall₂_of_mapM_eq_ok {items : List α} {results : List β} (h : items.mapM f = .ok results) :
    List.Forall₂ (fun a b => f a = .ok b) items results := by
  induction items generalizing results with
  | nil =>
    cases h
    exact .nil
  | cons a rest ih =>
    rw [List.mapM_cons] at h
    cases ha : f a with
    | error e =>
      rw [ha] at h
      cases h
    | ok head =>
      cases hrest : rest.mapM f with
      | error e =>
        rw [ha, hrest] at h
        cases h
      | ok others =>
        rw [ha, hrest] at h
        cases h
        exact .cons ha (ih hrest)

theorem mem_of_mapM_eq_ok {items : List α} {results : List β} (h : items.mapM f = .ok results)
    (b : β) : b ∈ results ↔ ∃ a ∈ items, f a = .ok b := by
  have hall := forall₂_of_mapM_eq_ok h
  clear h
  induction hall with
  | nil => simp
  | cons ha _ ih => simp [ih, ha, eq_comm]

end

namespace ConfiguredRate

/-- A row says a change: the rate is its rate, between the currencies of its two codes. -/
structure Says (row : ConfiguredRate) (change : RateChange) : Prop where
  source : change.source.code = row.source
  target : change.target.code = row.target
  rate : change.rate = row.rate

theorem change_eq_ok_iff {row : ConfiguredRate} {change : RateChange} :
    row.change = .ok change ↔ row.Says change := by
  constructor
  · intro h
    rw [ConfiguredRate.change] at h
    cases hsource : Currency.ofCode row.source with
    | error e =>
      rw [hsource] at h
      cases h
    | ok source =>
      cases htarget : Currency.ofCode row.target with
      | error e =>
        rw [hsource, htarget] at h
        cases h
      | ok target =>
        rw [hsource, htarget] at h
        cases h
        exact ⟨(Currency.ofCode_eq_ok_iff.mp hsource).symm,
          (Currency.ofCode_eq_ok_iff.mp htarget).symm, rfl⟩
  · rintro ⟨hsource, htarget, hrate⟩
    rw [ConfiguredRate.change, Currency.ofCode_eq_ok_iff.mpr hsource.symm,
      Currency.ofCode_eq_ok_iff.mpr htarget.symm, ← hrate]
    rfl

theorem change_fails_iff (row : ConfiguredRate) :
    (∃ error, row.change = .error error) ↔ row.source ∉ Currency.all.map Currency.code ∨
      row.target ∉ Currency.all.map Currency.code :=
  Currency.ofCodes_eq_error_iff fun source target => ⟨⟨source, target, row.rate⟩, rfl⟩

theorem changes_exist_iff {rows : List ConfiguredRate} :
    (∃ changes, rows.mapM change = .ok changes) ↔
      ∀ row ∈ rows, row.source ∈ Currency.all.map Currency.code ∧
        row.target ∈ Currency.all.map Currency.code := by
  rw [← not_iff_not, ← exists_error_iff, mapM_fails_iff]
  simp only [change_fails_iff, not_forall, exists_prop, not_and_or]

end ConfiguredRate

namespace Config
open Writing

def applying (config : Config) : Writing RatesError Unit := do
  let changes ← of ((config.rates.mapM ConfiguredRate.change).mapError .entry)
  ExceptT.adapt .update (RateChange.updating changes)

theorem runOn_applying (config : Config) (table : RateTable) :
    runOn table config.applying = table.after (config.applyRates table) := by
  rw [applying, runOn_bind, runOn_of, applyRates]
  cases config.rates.mapM ConfiguredRate.change with
  | error e => rfl
  | ok changes =>
    dsimp only [Except.mapError, bind, Except.bind]
    rw [runOn_adapt, RateChange.runOn_updating]
    cases table.update changes <;> rfl

/-- The rows are read first, then what they say is written as one batch. -/
theorem applyRates_cases (config : Config) (table : RateTable) :
    (∃ error, config.rates.mapM ConfiguredRate.change = .error error ∧
      config.applyRates table = .error (.entry error)) ∨
    ∃ changes, config.rates.mapM ConfiguredRate.change = .ok changes ∧
      config.applyRates table = (table.update changes).mapError .update := by
  rw [applyRates]
  cases config.rates.mapM ConfiguredRate.change with
  | error error => exact Or.inl ⟨error, rfl, rfl⟩
  | ok changes => exact Or.inr ⟨changes, rfl, rfl⟩

/-- Codes are read before any rate is judged. -/
theorem applyRates_fails_on_entry_iff (config : Config) (table : RateTable) :
    (∃ error, config.applyRates table = .error (.entry error)) ↔
      ∃ row ∈ config.rates, row.source ∉ Currency.all.map Currency.code ∨
        row.target ∉ Currency.all.map Currency.code := by
  simp only [← ConfiguredRate.change_fails_iff, ← mapM_fails_iff]
  rcases applyRates_cases config table with ⟨error, hrows, happly⟩ | ⟨changes, hrows, happly⟩
  · simp [happly, hrows]
  · cases hupdate : table.update changes <;> simp [happly, hrows, hupdate, Except.mapError]

theorem applyRates_fails_on_update_iff (config : Config) (table : RateTable) :
    (∃ error, config.applyRates table = .error (.update error)) ↔
      (∀ row ∈ config.rates, row.source ∈ Currency.all.map Currency.code ∧
        row.target ∈ Currency.all.map Currency.code) ∧
      ∃ row ∈ config.rates, ∃ change error, row.Says change ∧ table.set change = .error error := by
  simp only [← ConfiguredRate.changes_exist_iff, ← ConfiguredRate.change_eq_ok_iff]
  rcases applyRates_cases config table with ⟨error, hrows, happly⟩ | ⟨changes, hrows, happly⟩
  · simp [happly, hrows]
  · have hupdate : (∃ error, config.applyRates table = .error (.update error)) ↔
        ∃ error, table.update changes = .error error := by
      rw [happly]
      cases table.update changes <;> simp [Except.mapError]
    rw [hupdate, RateTable.update_fails_iff]
    constructor
    · rintro ⟨change, hmem, error, hset⟩
      obtain ⟨row, hrow, hchange⟩ := (mem_of_mapM_eq_ok hrows change).mp hmem
      exact ⟨⟨changes, hrows⟩, row, hrow, change, error, hchange, hset⟩
    · rintro ⟨-, row, hrow, change, error, hchange, hset⟩
      exact ⟨change, (mem_of_mapM_eq_ok hrows change).mpr ⟨row, hrow, hchange⟩, error, hset⟩

theorem exists_update_of_applyRates {config : Config} {table result : RateTable}
    (h : config.applyRates table = .ok result) :
    ∃ changes, config.rates.mapM ConfiguredRate.change = .ok changes ∧
      table.update changes = .ok result := by
  rcases applyRates_cases config table with ⟨error, hrows, happly⟩ | ⟨changes, hrows, happly⟩
  · rw [happly] at h
    cases h
  · refine ⟨changes, hrows, ?_⟩
    rw [happly] at h
    cases hupdate : table.update changes with
    | error error =>
      rw [hupdate] at h
      cases h
    | ok updated =>
      rw [hupdate] at h
      cases h
      rfl

end Config

/-- A batch is written as a whole or not at all. It fails on the first change that would be rejected
alone, and otherwise leaves the table that its changes leave one by one. Configured rates behave
alike, each row as the change that it says, with every code read before any rate is judged. -/
theorem writes_all_or_nothing (table : RateTable) :
    (∀ changes : List RateChange,
      ((∃ error, table.update changes = .error error) ↔
        ∃ change ∈ changes, ∃ error, table.set change = .error error) ∧
      (∀ error, table.update changes = .error error ↔
        ∃ before change after, changes = before ++ change :: after ∧
          (∀ earlier ∈ before, ∃ result, table.set earlier = .ok result) ∧
          table.set change = .error error) ∧
      (∀ error, table.update changes = .error error →
        (RateChange.updating changes).runOn table = (.error error, table)) ∧
      (∀ result, table.update changes = .ok result →
        (RateChange.updating changes).runOn table = (.ok (), result) ∧
          changes.foldlM RateTable.set table = .ok result)) ∧
    (∀ config : Config,
      ((∃ error, config.applyRates table = .error (.entry error)) ↔
        ∃ row ∈ config.rates, row.source ∉ Currency.all.map Currency.code ∨
          row.target ∉ Currency.all.map Currency.code) ∧
      ((∃ error, config.applyRates table = .error (.update error)) ↔
        (∀ row ∈ config.rates, row.source ∈ Currency.all.map Currency.code ∧
          row.target ∈ Currency.all.map Currency.code) ∧
        ∃ row ∈ config.rates, ∃ change error, row.Says change ∧ table.set change = .error error) ∧
      (∀ error, config.applyRates table = .error error →
        config.applying.runOn table = (.error error, table)) ∧
      (∀ result, config.applyRates table = .ok result →
        config.applying.runOn table = (.ok (), result) ∧
          ∃ changes, List.Forall₂ ConfiguredRate.Says config.rates changes ∧
            changes.foldlM RateTable.set table = .ok result)) := by
  refine ⟨fun changes => ⟨RateTable.update_fails_iff, fun _ => RateTable.update_eq_error_iff, ?_, ?_⟩,
    fun config => ⟨config.applyRates_fails_on_entry_iff table,
      config.applyRates_fails_on_update_iff table, ?_, ?_⟩⟩
  · intro error h
    rw [RateChange.runOn_updating, h]
    rfl
  · intro result h
    obtain ⟨hvalid, rfl⟩ := RateTable.update_eq_ok_iff.mp h
    rw [RateChange.runOn_updating, h]
    exact ⟨rfl, RateTable.foldlM_set hvalid table⟩
  · intro error h
    rw [Config.runOn_applying, h]
    rfl
  · intro result h
    obtain ⟨changes, hchanges, hupdate⟩ := Config.exists_update_of_applyRates h
    obtain ⟨hvalid, rfl⟩ := RateTable.update_eq_ok_iff.mp hupdate
    rw [Config.runOn_applying, h]
    have hsays := (forall₂_of_mapM_eq_ok hchanges).imp fun _ _ => ConfiguredRate.change_eq_ok_iff.mp
    exact ⟨rfl, changes, hsays, RateTable.foldlM_set hvalid table⟩

/-- A good rate before a bad one is not written either. -/
example : (RateChange.updating [⟨.usd, .eur, 0.95⟩, ⟨.usd, .gbp, -0.8⟩]).runOn .initial =
    (.error (.invalidRate .usd .gbp (-0.8)), .initial) := by
  decide +kernel

end TemplateCost
