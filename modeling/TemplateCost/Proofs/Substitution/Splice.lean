import TemplateCost.Proofs.Substitution.Lookup

/-! # Splicing tokens into text

Between tokens a text is copied, and a token is replaced as a whole: what is put in for it is not
looked at again. The mark of a token cannot begin inside text that does not hold one, because its
first character does not come again in it.
-/
namespace TemplateCost.Substitution

/-- Text that holds no beginning of a reference to data. -/
def IsFree (text : List Char) : Prop := ¬ referenceMark <:+: text

instance (text : List Char) : Decidable (IsFree text) :=
  inferInstanceAs (Decidable (¬ referenceMark <:+: text))

theorem isFree_nil : IsFree [] := by decide

/-- The token around a path. -/
def tokenOf (path : List Char) : List Char := '$' :: '{' :: path ++ ['}']

/-- A path into data without the mark that closes a token. -/
structure IsDataPath (path : List Char) : Prop where
  data : "data.".toList <+: path
  closing : '}' ∉ path

theorem toList_token_eq (inner : String) : (token inner).toList = tokenOf inner.toList :=
  toList_token inner

theorem referenceMark_eq : referenceMark = '$' :: '{' :: "data.".toList := rfl

theorem referenceMark_begins_token {path : List Char} (h : IsDataPath path) (rest : List Char) :
    referenceMark <+: tokenOf path ++ rest := by
  obtain ⟨tail, rfl⟩ := h.data
  refine ⟨tail ++ ['}'] ++ rest, ?_⟩
  simp only [referenceMark_eq, tokenOf, List.cons_append, List.append_assoc]

theorem tokenAt?_token {path : List Char} (h : IsDataPath path) (rest : List Char) :
    tokenAt? (tokenOf path ++ rest) = some (tokenOf path) := by
  have hbefore : '}' ∉ '$' :: '{' :: path := by simp [h.closing]
  have hfound := Text.findMark?_append_singleton hbefore rest
  have htext : tokenOf path ++ rest = '$' :: '{' :: path ++ '}' :: rest := by simp [tokenOf]
  rw [tokenAt?, if_pos (List.isPrefixOf_iff_prefix.mpr (referenceMark_begins_token h rest)), htext, hfound]
  rfl

theorem tokenAt?_eq_none {text : List Char} (h : ¬ referenceMark <+: text) : tokenAt? text = none := by
  rw [tokenAt?, if_neg]
  rwa [List.isPrefixOf_iff_prefix]

/-! ## One pass over a text -/

variable (resolved : Entries Value)

theorem splice_taken (taken : Nat) (text : List Char) :
    splice resolved taken text = splice resolved 0 (text.drop taken) := by
  induction text generalizing taken with
  | nil => simp [splice]
  | cons c rest ih =>
    cases taken with
    | zero => rfl
    | succ taken => rw [splice, ih, List.drop_succ_cons]

theorem splice_token {path : List Char} (h : IsDataPath path) (rest : List Char) :
    splice resolved 0 (tokenOf path ++ rest) =
      tokenText resolved (tokenOf path) ++ splice resolved 0 rest := by
  have hat := tokenAt?_token h rest
  have hcons : tokenOf path ++ rest = '$' :: ('{' :: path ++ ['}'] ++ rest) := rfl
  rw [hcons] at hat ⊢
  have hlength : (tokenOf path).length - 1 = ('{' :: path ++ ['}']).length := rfl
  rw [splice, hat]
  change tokenText resolved (tokenOf path) ++
    splice resolved ((tokenOf path).length - 1) ('{' :: path ++ ['}'] ++ rest) = _
  rw [splice_taken, hlength, List.drop_left]

/-- Free text is copied, when what follows it is nothing or starts like a token. -/
theorem splice_free {before rest : List Char} (h : IsFree before)
    (hrest : rest.head?.all (· = '$')) :
    splice resolved 0 (before ++ rest) = before ++ splice resolved 0 rest := by
  induction before with
  | nil => rfl
  | cons c before ih =>
    have hnone : tokenAt? (c :: before ++ rest) = none := by
      refine tokenAt?_eq_none fun hp => h ?_
      exact Text.infix_of_prefix_append (by decide) hrest (List.cons_ne_nil c before) hp
    have hbefore : IsFree before := fun hi => h (hi.trans (List.suffix_cons c before).isInfix)
    rw [List.cons_append] at hnone ⊢
    rw [splice, hnone]
    simp [ih hbefore]

theorem splice_of_isFree {text : List Char} (h : IsFree text) : splice resolved 0 text = text := by
  have hcopy : splice resolved 0 (text ++ []) = text ++ splice resolved 0 [] :=
    splice_free resolved h (by simp)
  simpa [splice] using hcopy

/-- The text up to a token is copied, and the pass goes on behind the token. -/
theorem splice_first {before path : List Char} (hbefore : IsFree before) (hpath : IsDataPath path)
    (after : List Char) : splice resolved 0 (before ++ (tokenOf path ++ after)) =
      before ++ (tokenText resolved (tokenOf path) ++ splice resolved 0 after) := by
  rw [splice_free resolved hbefore (by simp [tokenOf]), splice_token resolved hpath]

theorem splice_embedded {before path after : List Char} (hbefore : IsFree before)
    (hpath : IsDataPath path) (hafter : IsFree after) :
    splice resolved 0 (before ++ (tokenOf path ++ after)) =
      before ++ (tokenText resolved (tokenOf path) ++ after) := by
  rw [splice_first resolved hbefore hpath, splice_of_isFree resolved hafter]

/-! ## Texts that are more than one token -/

theorem eq_tokenOf_of_tokenPath? {text path : List Char} (h : tokenPath? text = some path) :
    text = tokenOf path := by
  obtain ⟨tail, ht, hlast⟩ := Option.bind_eq_some_iff.mp h
  split at hlast
  · rename_i hclose
    have htail : tail = path ++ ['}'] := by
      rw [← Option.some.inj hlast, List.dropLast_append_getLast? _ hclose]
    rw [Text.append_of_dropMark? ht, htail]
    rfl
  · cases hlast

theorem lookup?_eq_none_of_brace {text : List Char}
    (h : ∀ path, text = tokenOf path → '{' ∈ path ∨ '}' ∈ path) : lookup? resolved text = none := by
  rw [lookup?]
  cases hp : tokenPath? text with
  | none => rfl
  | some path =>
    have hbrace := h path (eq_tokenOf_of_tokenPath? hp)
    simp [hbrace]

/-- A text with more than a token is not a reference, since braces are left inside its marks. -/
theorem lookup?_embedded {before after : List Char} (h : before ≠ [] ∨ after ≠ [])
    (path : List Char) : lookup? resolved (before ++ (tokenOf path ++ after)) = none := by
  apply lookup?_eq_none_of_brace
  intro inner heq
  cases before with
  | nil =>
    have hafter : after ≠ [] := by simpa using h
    obtain ⟨init, last, rfl⟩ := (List.eq_nil_or_concat after).resolve_left hafter
    have htail : path ++ '}' :: init ++ [last] = inner ++ ['}'] := by simpa [tokenOf] using heq
    have hinner := (List.append_inj' htail rfl).1
    exact Or.inr (hinner ▸ by simp)
  | cons c before =>
    cases before with
    | nil => simp [tokenOf] at heq
    | cons d before =>
      have htail : before ++ (tokenOf path ++ after) = inner ++ ['}'] :=
        (List.cons.inj (List.cons.inj heq).2).2
      have hmem : '{' ∈ inner ++ ['}'] := by
        rw [← htail]
        simp [tokenOf]
      exact Or.inl (by simpa using hmem)

/-! ## Replacing a text -/

theorem contains_referenceMark {before path : List Char} (h : IsDataPath path) (after : List Char) :
    Text.contains referenceMark (before ++ (tokenOf path ++ after)) = true :=
  Text.contains_iff_isInfix.mpr
    ((referenceMark_begins_token h after).isInfix.trans (List.suffix_append before _).isInfix)

theorem replaceText_of_isFree {text : String} (h : IsFree text.toList) :
    replaceText resolved text = .string text := by
  rw [replaceText, if_neg]
  rwa [Text.contains_iff_isInfix]

theorem replaceText_of_none {text : String} (h : lookup? resolved text.toList = none) :
    replaceText resolved text = .string (String.ofList (splice resolved 0 text.toList)) := by
  by_cases hfree : IsFree text.toList
  · rw [replaceText_of_isFree resolved hfree, splice_of_isFree resolved hfree, String.ofList_toList]
  · rw [replaceText, if_pos (Text.contains_iff_isInfix.mpr (not_not.mp hfree)), h]

/-- A text that is one known reference takes the value itself. -/
theorem replaceText_token {path : String} {w : Value} (h : IsDataPath path.toList)
    (hknown : lookup? resolved (token path).toList = some w) :
    replaceText resolved (token path) = w := by
  have hmark : Text.contains referenceMark ([] ++ (tokenOf path.toList ++ [])) = true :=
    contains_referenceMark h []
  rw [List.nil_append, List.append_nil, ← toList_token_eq] at hmark
  rw [replaceText, if_pos hmark, hknown]

/-- A longer text takes the display text of what a token in it refers to. -/
theorem replaceText_embedded {before path after : String} {w : Value}
    (hne : before ≠ "" ∨ after ≠ "") (hbefore : IsFree before.toList)
    (hpath : IsDataPath path.toList) (hafter : IsFree after.toList)
    (hknown : lookup? resolved (token path).toList = some w) :
    replaceText resolved (before ++ token path ++ after) =
      .string (before ++ w.display ++ after) := by
  have htext : (before ++ token path ++ after).toList =
      before.toList ++ (tokenOf path.toList ++ after.toList) := by
    simp [toList_token_eq]
  have hsome : tokenText resolved (tokenOf path.toList) = w.display.toList := by
    rw [tokenText, ← toList_token_eq, hknown]
  have haround : before.toList ≠ [] ∨ after.toList ≠ [] := by simpa using hne
  have hnone := lookup?_embedded resolved haround path.toList
  rw [← htext] at hnone
  rw [replaceText_of_none resolved hnone, htext, splice_embedded resolved hbefore hpath hafter, hsome]
  simp [← String.toList_inj]

end TemplateCost.Substitution
