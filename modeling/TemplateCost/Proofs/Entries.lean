import Mathlib.Algebra.GroupWithZero.Nat
import Mathlib.Data.List.Nodup
import Mathlib.Data.String.Basic
import TemplateCost.Entries

/-! # Laws of key-sorted entries

Insertion keeps the order of the keys, so a key stands at most once and `get?` sees every entry. Of
several entries written over a map the last one with a key is found. Inserting replaces one entry,
which changes a sum over all entries by the difference of the two.
-/
namespace TemplateCost.Entries
variable {α β : Type}

theorem get?_cons (key : String) (entry : String × α) (rest : Entries α) :
    get? key (entry :: rest) = if entry.1 = key then some entry.2 else get? key rest := by
  by_cases h : entry.1 = key <;> simp [get?, h]

theorem get?_append (key : String) (entries others : Entries α) :
    get? key (entries ++ others) = (get? key entries).or (get? key others) := by
  induction entries with
  | nil => simp [get?_nil]
  | cons entry rest ih =>
    rw [List.cons_append, get?_cons, get?_cons, ih]
    split <;> rfl

theorem get?_eq_none_iff {key : String} {entries : Entries α} :
    get? key entries = none ↔ ∀ entry ∈ entries, entry.1 ≠ key := by
  simp [get?, List.find?_eq_none]

theorem mem_of_find? {κ : Type} [DecidableEq κ] {entries : List (κ × α)} {key : κ} {value : α}
    (h : (entries.find? fun entry => entry.1 = key).map Prod.snd = some value) :
    (key, value) ∈ entries := by
  obtain ⟨entry, hfound, rfl⟩ := Option.map_eq_some_iff.mp h
  have hkey : entry.1 = key := by simpa using List.find?_some hfound
  exact hkey ▸ List.mem_of_find?_eq_some hfound

theorem mem_of_get? {key : String} {value : α} {entries : Entries α}
    (h : get? key entries = some value) : (key, value) ∈ entries :=
  mem_of_find? h

/-- Where no key stands twice, the entry that is found for a key is the only one. -/
theorem find?_eq_some_iff_of_nodup {κ : Type} [DecidableEq κ] {entries : List (κ × α)}
    (h : (entries.map Prod.fst).Nodup) {key : κ} {value : α} :
    (entries.find? fun entry => entry.1 = key).map Prod.snd = some value ↔ (key, value) ∈ entries := by
  refine ⟨mem_of_find?, ?_⟩
  intro hmem
  cases hfound : entries.find? fun entry => entry.1 = key with
  | none =>
    have hnone := List.find?_eq_none.mp hfound _ hmem
    simp at hnone
  | some entry =>
    have hentry := List.mem_of_find?_eq_some hfound
    have hkey : entry.1 = key := by simpa using List.find?_some hfound
    exact congrArg (some ·.2) (List.inj_on_of_nodup_map h hentry hmem hkey)

theorem get?_reverse_eq_none {key : String} {entries : Entries α} :
    get? key entries.reverse = none ↔ get? key entries = none := by
  simp only [get?_eq_none_iff, List.mem_reverse]

/-- Seen from the end, the first entry with a key is the last one that was written. -/
theorem get?_reverse_of_last {key : String} {after : Entries α} (h : get? key after = none)
    (before : Entries α) (value : α) :
    get? key (before ++ (key, value) :: after).reverse = some value := by
  rw [List.reverse_append, List.reverse_cons, List.append_assoc, get?_append,
    get?_reverse_eq_none.mpr h, Option.none_or, List.singleton_append, get?_cons, if_pos rfl]

theorem mem_keys_iff {key : String} {entries : Entries α} :
    key ∈ entries.keys ↔ (get? key entries).isSome := by
  rw [← not_iff_not, Bool.not_eq_true, Option.isSome_eq_false_iff, Option.isNone_iff_eq_none,
    get?_eq_none_iff]
  constructor
  · intro h entry he heq
    exact h (List.mem_map.mpr ⟨entry, he, heq⟩)
  · intro h hk
    obtain ⟨entry, he, heq⟩ := List.mem_map.mp hk
    exact h entry he heq

theorem get?_mapValues (f : α → β) (key : String) (entries : Entries α) :
    get? key (mapValues f entries) = (get? key entries).map f := by
  induction entries with
  | nil => rfl
  | cons entry rest ih =>
    have hstep : mapValues f (entry :: rest) = (entry.1, f entry.2) :: mapValues f rest := rfl
    rw [hstep, get?_cons, get?_cons, ih]
    split <;> rfl

theorem keys_mapValues (f : α → β) (entries : Entries α) :
    (entries.mapValues f).keys = entries.keys := by
  rw [keys, keys, mapValues, List.map_map]
  rfl

theorem get?_map_keyed (f : String → α → β) (key : String) (entries : Entries α) :
    get? key (entries.map fun entry => (entry.1, f entry.1 entry.2)) =
      (get? key entries).map (f key) := by
  induction entries with
  | nil => rfl
  | cons entry rest ih =>
    rw [List.map_cons, get?_cons, get?_cons, ih]
    split
    · rename_i heq
      rw [heq, Option.map_some]
    · rfl

/-- Of what is kept of a list, the first entry with a key is found. -/
theorem get?_filterMap_eq_some_iff {f : β → Option (String × α)} {key : String} {value : α}
    {items : List β} :
    get? key (items.filterMap f) = some value ↔
      ∃ before item after, items = before ++ item :: after ∧ f item = some (key, value) ∧
        ∀ earlier ∈ before, ∀ other, f earlier ≠ some (key, other) := by
  have hskipped : ∀ item, (!(f item).any fun entry => entry.1 = key) = true ↔
      ∀ other, f item ≠ some (key, other) := by
    intro item
    cases f item <;> simp [Prod.ext_iff]
  rw [get?, List.find?_filterMap, Option.map_eq_some_iff]
  simp only [Option.bind_eq_some_iff, List.find?_eq_some_iff_append, hskipped]
  constructor
  · rintro ⟨⟨name, _⟩, ⟨item, ⟨hitem, before, after, hsplit, hbefore⟩, hentry⟩, rfl⟩
    obtain rfl : name = key := by simpa [hentry] using hitem
    exact ⟨before, item, after, hsplit, hentry, hbefore⟩
  · rintro ⟨before, item, after, hsplit, hentry, hbefore⟩
    exact ⟨_, ⟨item, ⟨by simp [hentry], before, after, hsplit, hbefore⟩, hentry⟩, rfl⟩

/-- Seen from the end, the last entry with a key is found. -/
theorem get?_reverse_filterMap_eq_some_iff {f : β → Option (String × α)} {key : String} {value : α}
    {items : List β} :
    get? key (items.filterMap f).reverse = some value ↔
      ∃ before item after, items = before ++ item :: after ∧ f item = some (key, value) ∧
        ∀ later ∈ after, ∀ other, f later ≠ some (key, other) := by
  rw [← List.filterMap_reverse, get?_filterMap_eq_some_iff]
  constructor
  · rintro ⟨before, item, after, hsplit, hentry, hbefore⟩
    refine ⟨after.reverse, item, before.reverse, ?_, hentry, by simpa using hbefore⟩
    simpa using congrArg List.reverse hsplit
  · rintro ⟨before, item, after, hsplit, hentry, hafter⟩
    exact ⟨after.reverse, item, before.reverse, by simp [hsplit], hentry, by simpa using hafter⟩

/-! ## Order -/

instance (entries : Entries α) : Decidable entries.Sorted :=
  inferInstanceAs (Decidable (List.Pairwise (fun a b => a.1 < b.1) entries))

theorem Sorted.get?_reverse {entries : Entries α} (h : entries.Sorted) (key : String) :
    get? key entries.reverse = get? key entries := by
  induction entries with
  | nil => rfl
  | cons head rest ih =>
    obtain ⟨hhead, hrest⟩ := List.pairwise_cons.mp h
    rw [List.reverse_cons, get?_append, ih hrest, get?_cons, get?_cons, get?_nil]
    split
    · rename_i heq
      have hnone : get? key rest = none :=
        get?_eq_none_iff.mpr fun entry he => heq ▸ (hhead entry he).ne'
      rw [hnone, Option.none_or]
    · exact Option.or_none

theorem mem_of_mem_insert {key : String} {value : α} {entries : Entries α} {entry : String × α}
    (h : entry ∈ insert key value entries) : entry = (key, value) ∨ entry ∈ entries := by
  induction entries with
  | nil => exact Or.inl (List.mem_singleton.mp h)
  | cons head rest ih =>
    simp only [insert] at h
    split at h
    · exact List.mem_cons.mp h
    · split at h
      · exact (List.mem_cons.mp h).imp_right (List.mem_cons_of_mem _)
      · rcases List.mem_cons.mp h with rfl | h
        · exact Or.inr List.mem_cons_self
        · exact (ih h).imp_right (List.mem_cons_of_mem _)

theorem sorted_nil : Sorted ([] : Entries α) := List.Pairwise.nil

theorem sorted_insert (key : String) (value : α) {entries : Entries α} (h : entries.Sorted) :
    (insert key value entries).Sorted := by
  induction entries with
  | nil => exact List.pairwise_singleton ..
  | cons head rest ih =>
    obtain ⟨hhead, hrest⟩ := List.pairwise_cons.mp h
    simp only [insert]
    split
    · rename_i hlt
      refine List.pairwise_cons.mpr ⟨?_, h⟩
      intro entry he
      rcases List.mem_cons.mp he with rfl | he
      · exact hlt
      · exact hlt.trans (hhead entry he)
    · rename_i hge
      split
      · rename_i heq
        refine List.pairwise_cons.mpr ⟨?_, hrest⟩
        intro entry he
        exact heq ▸ hhead entry he
      · rename_i hne
        refine List.pairwise_cons.mpr ⟨?_, ih hrest⟩
        intro entry he
        rcases mem_of_mem_insert he with rfl | he
        · exact lt_of_le_of_ne (not_lt.mp hge) (Ne.symm hne)
        · exact hhead entry he

theorem sorted_overlay {earlier : Entries α} (h : earlier.Sorted) (later : List (String × α)) :
    (overlay earlier later).Sorted := by
  induction later generalizing earlier with
  | nil => exact h
  | cons entry rest ih => exact ih (sorted_insert entry.1 entry.2 h)

theorem sorted_ofList (entries : List (String × α)) : (ofList entries).Sorted :=
  sorted_overlay sorted_nil entries

theorem Sorted.get?_eq_none {key : String} {head : String × α} {rest : Entries α}
    (h : Sorted (head :: rest)) (hlt : key < head.1) : get? key (head :: rest) = none := by
  refine get?_eq_none_iff.mpr ?_
  intro entry he
  rcases List.mem_cons.mp he with rfl | he
  · exact hlt.ne'
  · exact (hlt.trans ((List.pairwise_cons.mp h).1 entry he)).ne'

theorem Sorted.nodup_keys {entries : Entries α} (h : entries.Sorted) : entries.keys.Nodup :=
  List.Pairwise.map Prod.fst (fun _ _ hlt => hlt.ne) h

theorem Sorted.get?_of_mem {entry : String × α} {entries : Entries α} (h : entries.Sorted)
    (hentry : entry ∈ entries) : entries.get? entry.1 = some entry.2 :=
  (find?_eq_some_iff_of_nodup h.nodup_keys).mpr hentry

/-- Entries in order are known by what is found under each key. -/
theorem Sorted.eq_of_get? {entries others : Entries α} (h : entries.Sorted) (ho : others.Sorted)
    (hget : ∀ key, entries.get? key = others.get? key) : entries = others := by
  have hmem : ∀ entry, entry ∈ entries ↔ entry ∈ others := by
    intro entry
    constructor
    · intro hentry
      exact mem_of_get? (hget entry.1 ▸ h.get?_of_mem hentry)
    · intro hentry
      exact mem_of_get? (hget entry.1 ▸ ho.get?_of_mem hentry)
  have hperm : entries.Perm others :=
    (List.perm_ext_iff_of_nodup (h.imp fun hlt heq => hlt.ne (congrArg Prod.fst heq))
      (ho.imp fun hlt heq => hlt.ne (congrArg Prod.fst heq))).mpr hmem
  apply hperm.eq_of_pairwise _ h ho
  intro a b _ _ hab hba
  exact absurd hab hba.asymm

theorem Sorted.mapValues (f : α → β) {entries : Entries α} (h : entries.Sorted) :
    (entries.mapValues f).Sorted :=
  List.pairwise_map.mpr h

/-- Values that are left out leave the order of the others as it is. -/
theorem Sorted.filterMap_values (f : α → Option β) {entries : Entries α} (h : entries.Sorted) :
    Sorted (entries.filterMap fun entry => (f entry.2).map fun value => (entry.1, value)) := by
  refine List.Pairwise.filterMap _ ?_ h
  intro a b hlt a' ha b' hb
  obtain ⟨_, _, rfl⟩ := Option.map_eq_some_iff.mp ha
  obtain ⟨_, _, rfl⟩ := Option.map_eq_some_iff.mp hb
  exact hlt

theorem Sorted.get?_filterMap_values (f : α → Option β) {entries : Entries α} (h : entries.Sorted)
    (key : String) :
    get? key (entries.filterMap fun entry => (f entry.2).map fun value => (entry.1, value)) =
      (get? key entries).bind f := by
  induction entries with
  | nil => rfl
  | cons head rest ih =>
    obtain ⟨hhead, hrest⟩ := List.pairwise_cons.mp h
    rw [List.filterMap_cons, get?_cons]
    cases hf : f head.2 with
    | none =>
      by_cases hkey : head.1 = key
      · have hnone : get? key rest = none :=
          get?_eq_none_iff.mpr fun entry he => hkey ▸ (hhead entry he).ne'
        simp [ih hrest, hkey, hnone, hf]
      · simp [ih hrest, hkey]
    | some value =>
      by_cases hkey : head.1 = key
      · simp [get?_cons, hkey, hf]
      · simp [get?_cons, ih hrest, hkey]

/-! ## Writing over a map -/

theorem get?_overlay (key : String) (earlier : Entries α) (later : List (String × α)) :
    (overlay earlier later).get? key = (get? key later.reverse).or (earlier.get? key) := by
  induction later generalizing earlier with
  | nil => rfl
  | cons entry rest ih =>
    have hstep : overlay earlier (entry :: rest) = overlay (earlier.insert entry.1 entry.2) rest := rfl
    rw [hstep, ih, get?_insert, List.reverse_cons, get?_append, get?_cons, get?_nil, Option.or_assoc]
    split <;> rfl

theorem get?_ofList (key : String) (entries : List (String × α)) :
    (ofList entries).get? key = get? key entries.reverse := by
  rw [ofList, get?_overlay, get?_nil, Option.or_none]

theorem mem_keys_ofList {key : String} {entries : List (String × α)} :
    key ∈ (ofList entries).keys ↔ key ∈ keys entries := by
  simp only [mem_keys_iff, get?_ofList, Option.isSome_iff_ne_none, ne_eq, get?_reverse_eq_none]

theorem insert_of_lt {key : String} {value : α} {entries : Entries α}
    (h : ∀ entry ∈ entries, entry.1 < key) : entries.insert key value = entries ++ [(key, value)] := by
  induction entries with
  | nil => rfl
  | cons entry rest ih =>
    obtain ⟨hentry, hrest⟩ := List.forall_mem_cons.mp h
    rw [insert, if_neg (lt_asymm hentry), if_neg hentry.ne', ih hrest, List.cons_append]

theorem overlay_eq_append {earlier later : Entries α} (h : Sorted (earlier ++ later)) :
    earlier.overlay later = earlier ++ later := by
  induction later generalizing earlier with
  | nil => exact (List.append_nil earlier).symm
  | cons entry rest ih =>
    have hlt : ∀ other ∈ earlier, other.1 < entry.1 := fun other hother =>
      (List.pairwise_append.mp h).2.2 other hother entry (by simp)
    have hsorted : Sorted (earlier ++ [entry] ++ rest) := by rwa [List.append_assoc, List.singleton_append]
    have hrest := ih hsorted
    have hstep : earlier.overlay (entry :: rest) = (earlier.insert entry.1 entry.2).overlay rest := rfl
    rw [hstep, insert_of_lt hlt, hrest, List.append_assoc, List.singleton_append]

/-- Entries that are in order are what writing them one after the other gives. -/
theorem Sorted.ofList_eq {entries : Entries α} (h : entries.Sorted) : ofList entries = entries := by
  have hnone : Sorted ([] ++ entries) := h
  exact overlay_eq_append hnone

theorem mem_of_mem_overlay {earlier : Entries α} {later : List (String × α)} {entry : String × α}
    (h : entry ∈ overlay earlier later) : entry ∈ earlier ∨ entry ∈ later := by
  induction later generalizing earlier with
  | nil => exact Or.inl h
  | cons first rest ih =>
    rcases ih h with hinserted | hrest
    · rcases mem_of_mem_insert hinserted with rfl | hearlier
      · exact Or.inr List.mem_cons_self
      · exact Or.inl hearlier
    · exact Or.inr (List.mem_cons_of_mem _ hrest)

theorem mem_of_mem_ofList {entries : List (String × α)} {entry : String × α} (h : entry ∈ ofList entries) :
    entry ∈ entries :=
  (mem_of_mem_overlay h).resolve_left List.not_mem_nil

/-- What an inserted value adds to a sum is what it has more than the value that it replaces. -/
theorem sum_insert (f : α → ℕ) (key : String) (value : α) {entries : Entries α} (h : entries.Sorted) :
    ((insert key value entries).map fun entry => f entry.2).sum + ((entries.get? key).map f).getD 0 =
      (entries.map fun entry => f entry.2).sum + f value := by
  induction entries with
  | nil => simp [insert, get?_nil]
  | cons head rest ih =>
    have hrest := ih (List.pairwise_cons.mp h).2
    simp only [insert]
    split
    · rename_i hlt
      rw [h.get?_eq_none hlt]
      simp only [List.map_cons, List.sum_cons, Option.map_none, Option.getD_none]
      omega
    · split
      · rename_i heq
        rw [get?_cons, if_pos heq.symm]
        simp only [List.map_cons, List.sum_cons, Option.map_some, Option.getD_some]
        omega
      · rename_i hne
        rw [get?_cons, if_neg (Ne.symm hne)]
        simp only [List.map_cons, List.sum_cons]
        omega

end TemplateCost.Entries
