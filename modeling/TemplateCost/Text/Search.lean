/-! # Searching and cutting text

Text is searched as a list of characters. A search returns what stands before the mark together
with the text from the mark on, so that the two parts always concatenate to the text searched.
-/
namespace TemplateCost.Text

def dropMark? : List Char → List Char → Option (List Char)
  | [], text => some text
  | _ :: _, [] => none
  | m :: mark, c :: text => if m = c then dropMark? mark text else none

def findMark? (mark : List Char) : List Char → Option (List Char × List Char)
  | [] => if mark = [] then some ([], []) else none
  | c :: text =>
    if mark.isPrefixOf (c :: text) then some ([], c :: text)
    else (findMark? mark text).map fun found => (c :: found.1, found.2)

def contains (mark text : List Char) : Bool := (findMark? mark text).isSome

/-- The pieces between separators: always one more than there are separators. -/
def pieces (separator : Char) : List Char → List (List Char)
  | [] => [[]]
  | c :: text =>
    if c = separator then [] :: pieces separator text
    else match pieces separator text with
      | [] => [[c]]
      | first :: rest => (c :: first) :: rest

theorem append_of_dropMark? {mark text rest : List Char} (h : dropMark? mark text = some rest) :
    text = mark ++ rest := by
  induction mark generalizing text with
  | nil => simpa [dropMark?] using h
  | cons m mark ih =>
    cases text with
    | nil => simp [dropMark?] at h
    | cons c text =>
      simp only [dropMark?] at h
      split at h
      · rename_i hc
        simp [hc, ih h]
      · simp at h

theorem append_of_findMark? {mark text before found : List Char}
    (h : findMark? mark text = some (before, found)) : text = before ++ found := by
  induction text generalizing before with
  | nil =>
    simp only [findMark?] at h
    split at h <;> simp_all
  | cons c text ih =>
    simp only [findMark?] at h
    split at h
    · simp at h; simp [← h.1, ← h.2]
    · obtain ⟨⟨b, f⟩, hf, he⟩ := Option.map_eq_some_iff.1 h
      obtain ⟨rfl, rfl⟩ := Prod.mk.injEq .. ▸ he
      simp [ih hf]

end TemplateCost.Text
