import Mathlib.Data.List.Infix
import TemplateCost.Text.Search

/-! # Laws of searching and cutting

A mark is contained in a text iff it is an infix of it. Pieces that hold no separator are found again
in the text that joins them with separators.
-/
namespace TemplateCost.Text

theorem findMark?_eq_none_iff {mark text : List Char} :
    findMark? mark text = none ↔ ¬ mark <:+: text := by
  induction text with
  | nil => by_cases h : mark = [] <;> simp [findMark?, h]
  | cons c text ih =>
    rw [findMark?, List.infix_cons_iff]
    by_cases h : mark <+: c :: text
    · simp [h]
    · simp [h, ih]

theorem contains_iff_isInfix {mark text : List Char} :
    contains mark text = true ↔ mark <:+: text := by
  rw [← not_iff_not, ← findMark?_eq_none_iff, contains, Bool.not_eq_true,
    Option.isSome_eq_false_iff, Option.isNone_iff_eq_none]

theorem findMark?_append_singleton {c : Char} {before : List Char} (h : c ∉ before)
    (rest : List Char) : findMark? [c] (before ++ c :: rest) = some (before, c :: rest) := by
  induction before with
  | nil => simp [findMark?]
  | cons d before ih =>
    rw [List.mem_cons, not_or] at h
    simp [findMark?, h.1, ih h.2]

theorem prefix_of_findMark? {mark text before found : List Char}
    (h : findMark? mark text = some (before, found)) : mark <+: found := by
  induction text generalizing before with
  | nil =>
    rw [findMark?] at h
    split at h
    · rename_i hmark
      exact hmark ▸ List.nil_prefix
    · cases h
  | cons c text ih =>
    rw [findMark?] at h
    split at h
    · rename_i hmark
      cases h
      exact List.isPrefixOf_iff_prefix.mp hmark
    · obtain ⟨⟨b, f⟩, hf, he⟩ := Option.map_eq_some_iff.mp h
      cases he
      exact ih hf

theorem not_mem_of_findMark? {c : Char} {text before found : List Char}
    (h : findMark? [c] text = some (before, found)) : c ∉ before := by
  induction text generalizing before with
  | nil => simp [findMark?] at h
  | cons d text ih =>
    rw [findMark?] at h
    split at h
    · cases h
      exact List.not_mem_nil
    · rename_i hmark
      obtain ⟨⟨b, f⟩, hf, he⟩ := Option.map_eq_some_iff.1 h
      cases he
      have hd : c ≠ d := by simpa using hmark
      exact fun hmem => (List.mem_cons.mp hmem).elim hd (ih hf)

/-- A mark does not go beyond a character that it does not hold. -/
theorem prefix_of_prefix_append_cons {c : Char} {mark before rest : List Char} (hc : c ∉ mark)
    (h : mark <+: before ++ c :: rest) : mark <+: before := by
  induction mark generalizing before with
  | nil => exact List.nil_prefix
  | cons m mark ih =>
    rw [List.mem_cons, not_or] at hc
    cases before with
    | nil => exact absurd (List.cons_prefix_cons.mp h).1.symm hc.1
    | cons b before =>
      obtain ⟨hm, hrest⟩ := List.cons_prefix_cons.mp h
      exact List.cons_prefix_cons.mpr ⟨hm, ih hc.2 hrest⟩

theorem pieces_eq_splitOn (separator : Char) (text : List Char) :
    pieces separator text = text.splitOn separator := by
  induction text with
  | nil => rfl
  | cons c text ih =>
    rw [pieces, ih, List.splitOn_cons_eq_if_modifyHead]
    by_cases h : c = separator
    · simp [h]
    · cases hs : text.splitOn separator with
      | nil => exact absurd hs (List.splitOn_ne_nil separator text)
      | cons first rest => simp [h]

theorem pieces_intercalate {separator : Char} {parts : List (List Char)}
    (h : ∀ part ∈ parts, separator ∉ part) (hne : parts ≠ []) :
    pieces separator ([separator].intercalate parts) = parts := by
  rw [pieces_eq_splitOn, List.splitOn_intercalate separator h hne]

theorem pieces_of_not_mem {separator : Char} {text : List Char} (h : separator ∉ text) :
    pieces separator text = [text] := by
  rw [pieces_eq_splitOn, List.splitOn_eq_singleton h]

theorem pieces_append (separator : Char) (text rest : List Char) :
    pieces separator (text ++ separator :: rest) = pieces separator text ++ pieces separator rest := by
  rw [pieces_eq_splitOn, pieces_eq_splitOn, pieces_eq_splitOn, List.splitOn_append_cons_self]

theorem intercalate_pieces (separator : Char) (text : List Char) :
    [separator].intercalate (pieces separator text) = text := by
  rw [pieces_eq_splitOn, List.intercalate_splitOn]

/-- A piece holds characters of the text, and no separator. -/
theorem mem_of_mem_pieces {separator c : Char} {text piece : List Char}
    (h : piece ∈ pieces separator text) (hc : c ∈ piece) : c ∈ text ∧ c ≠ separator := by
  induction text generalizing piece with
  | nil =>
    cases List.mem_singleton.mp h
    cases hc
  | cons d text ih =>
    rw [pieces] at h
    split at h
    · rcases List.mem_cons.mp h with rfl | hlater
      · cases hc
      · exact (ih hlater hc).imp_left (List.mem_cons_of_mem d)
    · rename_i hd
      cases hpieces : pieces separator text with
      | nil =>
        have hpiece : piece = [d] := by simpa [hpieces] using h
        have hcd : c = d := by simpa [hpiece] using hc
        exact ⟨hcd ▸ List.mem_cons_self, hcd ▸ hd⟩
      | cons first rest =>
        rw [hpieces] at ih h
        rcases List.mem_cons.mp h with rfl | hlater
        · rcases List.mem_cons.mp hc with rfl | hfirst
          · exact ⟨List.mem_cons_self, hd⟩
          · exact (ih List.mem_cons_self hfirst).imp_left (List.mem_cons_of_mem d)
        · exact (ih (List.mem_cons_of_mem first hlater) hc).imp_left (List.mem_cons_of_mem d)

theorem not_mem_intercalate {c separator : Char} {parts : List (List Char)} (hc : c ≠ separator)
    (h : ∀ part ∈ parts, c ∉ part) : c ∉ [separator].intercalate parts := by
  induction parts with
  | nil => simp
  | cons part rest ih =>
    have hpart := h part List.mem_cons_self
    have hrest := ih fun other ho => h other (List.mem_cons_of_mem _ ho)
    cases rest with
    | nil => simpa using hpart
    | cons other rest =>
      rw [List.intercalate_cons_cons]
      simp [hpart, hc, hrest]

/-- A mark whose first character does not come again cannot begin inside a text that it is not contained
in, also where that text is followed by a text that starts like the mark or is empty. -/
theorem infix_of_prefix_append {m : Char} {mark before rest : List Char} (hm : m ∉ mark)
    (hrest : rest.head?.all (· = m)) (hne : before ≠ []) (h : m :: mark <+: before ++ rest) :
    m :: mark <:+: before := by
  rcases List.prefix_or_prefix_of_prefix h (List.prefix_append before rest) with h' | ⟨tail, ht⟩
  · exact h'.isInfix
  · cases tail with
    | nil => exact (List.append_nil before ▸ ht) ▸ List.infix_refl _
    | cons c tail =>
      cases before with
      | nil => exact absurd rfl hne
      | cons b before =>
        -- the rest goes on with a character of the mark that is not its first one
        have hc : rest.head? = some c := by
          rw [← ht] at h
          obtain ⟨t, hh⟩ := (List.prefix_append_right_inj _).mp h
          rw [← hh]
          rfl
        have hcm : c = m := by simpa [hc] using hrest
        have hmem : c ∈ mark := by
          have := (List.cons.inj ht).2
          rw [← this]
          simp
        exact absurd (hcm ▸ hmem) hm

end TemplateCost.Text
