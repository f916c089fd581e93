/-! # Key-sorted entries

Maps are lists of entries in increasing order of their keys, compared by code points. Inserting
keeps the order and replaces the value of a key that is already there, so the last write wins.
-/
namespace TemplateCost

abbrev Entries (α : Type) := List (String × α)

namespace Entries

def insert (key : String) (value : α) : Entries α → Entries α
  | [] => [(key, value)]
  | entry :: rest =>
    if key < entry.1 then (key, value) :: entry :: rest
    else if key = entry.1 then (key, value) :: rest
    else entry :: insert key value rest

def get? (key : String) (entries : Entries α) : Option α :=
  (entries.find? fun entry => entry.1 = key).map Prod.snd

def keys (entries : Entries α) : List String := entries.map Prod.fst

/-- All of `later` written over `earlier`, in order. -/
def overlay (earlier : Entries α) (later : List (String × α)) : Entries α :=
  later.foldl (fun entries entry => entries.insert entry.1 entry.2) earlier

def ofList (entries : List (String × α)) : Entries α := overlay [] entries

def mapValues (f : α → β) (entries : Entries α) : Entries β :=
  entries.map fun entry => (entry.1, f entry.2)

def Sorted (entries : Entries α) : Prop := entries.Pairwise fun a b => a.1 < b.1

theorem get?_nil (key : String) : get? key ([] : Entries α) = none := rfl

theorem get?_insert (key other : String) (value : α) (entries : Entries α) :
    (insert key value entries).get? other = if key = other then some value else entries.get? other := by
  induction entries with
  | nil => by_cases h : key = other <;> simp [insert, get?, h]
  | cons entry rest ih =>
    simp only [insert]
    split
    · by_cases h : key = other <;> simp [get?, h]
    · split
      · rename_i hk
        by_cases h : key = other
        · simp [get?, h]
        · have : entry.1 ≠ other := fun e => h (hk.trans e)
          simp [get?, h, this]
      · by_cases ho : entry.1 = other
        · rename_i hk
          have : key ≠ other := fun e => hk (e.trans ho.symm)
          simp [get?, ho, this]
        · have hstep : get? other (entry :: insert key value rest) = get? other (insert key value rest) := by
            simp [get?, ho]
          have hrest : get? other (entry :: rest) = get? other rest := by simp [get?, ho]
          rw [hstep, ih, hrest]

end Entries
end TemplateCost
