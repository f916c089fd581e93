import TemplateCost.Proofs.Json.Numbers

/-! # Reading scalars back

A text is read back to the closing quote whatever characters it is made of: each of them is
escaped by a letter, escaped by its number, or stands as it is. Beside a rest of the document a scalar
is told by its first character alone, so it is the same value under any number of containers.
-/
namespace TemplateCost.Json
open Text Text.Reader
variable {rest : List Char}

/-! ## Strings -/

theorem hexValue?_control : ∀ n < 0x20,
    hexValue? ['0', '0', hexDigit (n / 16), hexDigit (n % 16)] = some n := by
  decide

/-- A character is escaped by a letter or by its number, or stands as it is. -/
theorem escapeChar_cases (c : Char) :
    (∃ e, e ≠ 'u' ∧ unescape? e = some c ∧ escapeChar c = ['\\', e]) ∨
    (c.toNat < 0x20 ∧
      escapeChar c = ['\\', 'u', '0', '0', hexDigit (c.toNat / 16), hexDigit (c.toNat % 16)]) ∨
    (¬ c.toNat < 0x20 ∧ c ≠ '\x22' ∧ c ≠ '\\' ∧ escapeChar c = [c]) := by
  by_cases hshort : c ∈ ['\x22', '\\', '\x08', '\x0c', '\n', '\r', '\t']
  · left
    simp only [List.mem_cons, List.not_mem_nil, or_false] at hshort
    rcases hshort with rfl | rfl | rfl | rfl | rfl | rfl | rfl <;>
      exact ⟨_, by decide, by decide, rfl⟩
  · simp only [List.mem_cons, List.not_mem_nil, or_false, not_or] at hshort
    by_cases hcontrol : c.toNat < 0x20
    · exact Or.inr (Or.inl ⟨hcontrol, by simp [escapeChar, hshort, hcontrol]⟩)
    · exact Or.inr (Or.inr ⟨hcontrol, hshort.1, hshort.2.1, by simp [escapeChar, hshort, hcontrol]⟩)

theorem stringTail_escapeChar (c : Char) (rest : List Char) :
    stringTail (escapeChar c ++ rest) = consTo c (stringTail rest) := by
  rcases escapeChar_cases c with ⟨e, hne, he, htext⟩ | ⟨hcontrol, htext⟩ |
    ⟨hcontrol, hquote, hslash, htext⟩
  · rw [htext, List.cons_append, List.singleton_append, stringTail.eq_def]
    split
    case h_4 e' rest' _ hcons =>
      obtain ⟨rfl, rfl⟩ : e = e' ∧ rest = rest' := by simpa using hcons
      rw [he]
    case h_5 c' rest' _ hshort hcons =>
      obtain ⟨rfl, rfl⟩ := List.cons.inj hcons
      exact absurd rfl (hshort e rest rfl)
    all_goals simp_all
  · have hhigh : isHighHalf c.toNat = false := by
      simp only [isHighHalf, Bool.and_eq_false_iff, decide_eq_false_iff_not]
      omega
    have hlow : isLowHalf c.toNat = false := by
      simp only [isLowHalf, Bool.and_eq_false_iff, decide_eq_false_iff_not]
      omega
    rw [htext]
    simp [stringTail, hexValue?_control _ hcontrol, hhigh, hlow]
  · rw [htext, List.singleton_append, stringTail.eq_def]
    split <;> simp_all

theorem quoted_stringText (text : String) (rest : List Char) :
    quoted (stringText text ++ rest) = some (text, rest) := by
  have htail : ∀ cs : List Char,
      stringTail (cs.flatMap escapeChar ++ ('\x22' :: rest)) = some (cs, rest) := by
    intro cs
    induction cs with
    | nil => rfl
    | cons c cs ih => rw [List.flatMap_cons, List.append_assoc, stringTail_escapeChar, ih]; rfl
  rw [stringText, List.cons_append, List.append_assoc, quoted, bind_apply, char_cons, if_pos rfl,
    Option.bind_some, bind_apply, List.singleton_append, htail, Option.bind_some, pure_apply, String.ofList_toList]

/-! ## Scalars as values -/

theorem value_of_head {levels : ℕ} {c : Char} (hlist : c ≠ '[') (hobject : c ≠ '{') :
    value levels (c :: rest) = value.scalar (c :: rest) := by
  cases levels with
  | zero => rfl
  | succ levels =>
    rw [value, bind_apply, peek?_apply, Option.bind_some, List.head?_cons]
    refine congrFun ?_ _
    split <;> simp_all

theorem value_of_isSpace (levels : ℕ) (c : Char) (text : List Char) (h : isSpace c = true) :
    value levels (c :: text) = none := by
  simp only [isSpace, Bool.or_eq_true, decide_eq_true_eq] at h
  rcases h with ((rfl | rfl) | rfl) | rfl <;> rw [value_of_head (by decide) (by decide)] <;> rfl

theorem value_null (levels : ℕ) (rest : List Char) :
    value levels ("null".toList ++ rest) = some (.null, rest) := by
  rw [show "null".toList = ['n', 'u', 'l', 'l'] from rfl, List.cons_append, value_of_head (by decide) (by decide)]
  rfl
theorem value_bool (levels : ℕ) (b : Bool) (rest : List Char) :
    value levels ((if b then "true" else "false").toList ++ rest) = some (.bool b, rest) := by
  cases b
  · exact value_of_head (by decide) (by decide)
  · exact value_of_head (by decide) (by decide)

theorem value_stringText (levels : ℕ) (text : String) (rest : List Char) :
    value levels (stringText text ++ rest) = some (.string text, rest) := by
  rw [stringText, List.cons_append, value_of_head (by decide) (by decide), value.scalar, bind_apply, peek?_apply,
    Option.bind_some, List.head?_cons]
  change (Json.string <$> quoted) (stringText text ++ rest) = _
  rw [map_apply, quoted_stringText, Option.map_some]

theorem value_of_number (levels : ℕ) {text : List Char} {j : Json} (h : number text = some (j, rest)) :
    value levels text = some (j, rest) := by
  obtain ⟨c, hc, hnumber⟩ : ∃ c ∈ text.head?, c = '-' ∨ c.isDigit = true := by
    by_contra hnone
    have hminus : char '-' text = none := char_eq_none fun c hc hminus => hnone ⟨c, hc, Or.inl hminus⟩
    have hdigits : span1 Char.isDigit text = none :=
      span1_eq_none fun c hc => by simpa using fun hdigit => hnone ⟨c, hc, Or.inr hdigit⟩
    rw [number, bind_apply, optional_apply, hminus, Option.bind_some, bind_apply, hdigits] at h
    cases h
  have hne : c ≠ '[' ∧ c ≠ '{' ∧ c ≠ '\x22' ∧ c ≠ 'n' ∧ c ≠ 't' ∧ c ≠ 'f' := by
    rcases hnumber with rfl | hdigit
    · decide
    · refine ⟨?_, ?_, ?_, ?_, ?_, ?_⟩ <;>
        · rintro rfl
          revert hdigit
          decide
  cases text with
  | nil => cases hc
  | cons d text =>
    cases hc
    rw [← h, value_of_head hne.1 hne.2.1, value.scalar, bind_apply, peek?_apply, Option.bind_some,
      List.head?_cons]
    refine congrFun ?_ _
    split <;> simp_all

end TemplateCost.Json
