import TemplateCost.Proofs.Substitution.Splice

/-! # Unknown references stay

A text is read token by token: a token goes from the mark of a reference to the next closing brace, and
the next one is looked for behind it. Substitution changes a text only where such a token is one of known
data. A value in which none stands is kept as it is, whatever marks its texts hold; in particular
everything is kept when nothing was answered.
-/
namespace TemplateCost
open Substitution

/-- No part of the text is a token of known data. -/
def NothingKnown (resolved : Entries Value) (text : List Char) : Prop :=
  ∀ part, part <:+: text → lookup? resolved part = none

mutual
/-- The texts of the strings and the placeholders inside a value. -/
def Value.texts : Value → List String
  | .string text => [text]
  | .placeholder token => [token]
  | .list items => Value.textsOfItems items
  | .map entries => Value.textsOfEntries entries
  | .bool _ => []
  | .number _ => []
def Value.textsOfItems : List Value → List String
  | [] => []
  | item :: rest => item.texts ++ Value.textsOfItems rest
def Value.textsOfEntries : List (String × Value) → List String
  | [] => []
  | (_, value) :: rest => value.texts ++ Value.textsOfEntries rest
end

/-- A token that is read in a text: the first one, which goes from the first mark to the next closing
brace, or one that is read behind it. -/
inductive Text.HasToken : List Char → List Char → Prop
  | first {before path : List Char} (hbefore : IsFree before) (hpath : IsDataPath path)
      (after : List Char) : HasToken (before ++ (tokenOf path ++ after)) (tokenOf path)
  | later {before path after token : List Char} (hbefore : IsFree before) (hpath : IsDataPath path)
      (h : HasToken after token) : HasToken (before ++ (tokenOf path ++ after)) token

theorem Substitution.isFree_cons {c : Char} {before : List Char} (hbefore : IsFree before)
    (h : ¬ referenceMark <+: c :: before) : IsFree (c :: before) := by
  rw [IsFree, List.infix_cons_iff, not_or]
  exact ⟨h, hbefore⟩

namespace Text.HasToken
variable {text token : List Char}

theorem front {path : List Char} (hpath : IsDataPath path) (after : List Char) :
    HasToken (tokenOf path ++ after) (tokenOf path) :=
  .first isFree_nil hpath after

theorem isInfix (h : HasToken text token) : token <:+: text := by
  induction h with
  | @first before path _ _ after => exact ⟨before, after, by rw [List.append_assoc]⟩
  | @later before path after _ _ _ _ ih =>
    exact ih.trans ((List.suffix_append _ after).trans (List.suffix_append before _)).isInfix

theorem closing_mem (h : HasToken text token) : '}' ∈ text := by
  cases h <;> simp [tokenOf]

/-- Where no mark begins, what is read is read from the next character on. -/
theorem cons_of_not_prefix {c : Char} (h : HasToken text token) (hmark : ¬ referenceMark <+: c :: text) :
    HasToken (c :: text) token := by
  cases h with
  | first hbefore hpath after =>
    refine .first (isFree_cons hbefore fun hprefix => hmark ?_) hpath after
    exact hprefix.trans (List.prefix_append _ _)
  | later hbefore hpath h =>
    refine .later (isFree_cons hbefore fun hprefix => hmark ?_) hpath h
    exact hprefix.trans (List.prefix_append _ _)

/-- Behind a mark that is not closed nothing is read. -/
theorem cons {c : Char} (h : HasToken text token) (hnone : tokenAt? (c :: text) = none) :
    HasToken (c :: text) token := by
  refine h.cons_of_not_prefix fun hmark => ?_
  rw [tokenAt?, if_pos (List.isPrefixOf_iff_prefix.mpr hmark), Option.map_eq_none_iff,
    Text.findMark?_eq_none_iff, List.singleton_infix_iff] at hnone
  exact hnone (List.mem_cons_of_mem c h.closing_mem)

theorem exists_first (h : HasToken text token) :
    ∃ before path after, IsFree before ∧ IsDataPath path ∧ text = before ++ (tokenOf path ++ after) := by
  cases h with
  | first hbefore hpath after => exact ⟨_, _, after, hbefore, hpath, rfl⟩
  | later hbefore hpath _ => exact ⟨_, _, _, hbefore, hpath, rfl⟩

end Text.HasToken

/-- A text is built from an end without tokens by putting tokens before it. -/
theorem Text.token_induction {P : List Char → Prop}
    (plain : ∀ text, (∀ token, ¬ HasToken text token) → P text)
    (first : ∀ before path after, IsFree before → IsDataPath path → P after →
      P (before ++ (tokenOf path ++ after))) (text : List Char) : P text := by
  -- on the length, since a token is taken off at once with what stands before it
  induction hlength : text.length using Nat.strong_induction_on generalizing text with
  | _ n ih =>
    by_cases hread : ∃ token, HasToken text token
    · obtain ⟨_, hread⟩ := hread
      obtain ⟨before, path, after, hbefore, hpath, rfl⟩ := hread.exists_first
      have hshorter : after.length < n := by
        rw [← hlength]
        simp [tokenOf]
        omega
      exact first before path after hbefore hpath (ih after.length hshorter after rfl)
    · exact plain text (not_exists.mp hread)

namespace Substitution
variable {resolved : Entries Value}

/-- A first mark does not begin before another one. -/
theorem eq_nil_of_free_append {before path after more rest : List Char} (h : IsFree (before ++ more))
    (hpath : IsDataPath path) (heq : tokenOf path ++ after = more ++ rest)
    (hrest : rest.head?.all (· = '$')) : more = [] := by
  by_contra hne
  have hmark : referenceMark <+: more ++ rest := heq ▸ referenceMark_begins_token hpath after
  have hinside := Text.infix_of_prefix_append (by decide) hrest hne hmark
  exact h (hinside.trans (List.suffix_append before more).isInfix)

/-- A text is cut at its first token in one way. -/
theorem first_token_unique {before path after other inner rest : List Char} (hbefore : IsFree before)
    (hpath : IsDataPath path) (hother : IsFree other) (hinner : IsDataPath inner)
    (heq : before ++ (tokenOf path ++ after) = other ++ (tokenOf inner ++ rest)) :
    path = inner ∧ after = rest := by
  have hsame : tokenOf path ++ after = tokenOf inner ++ rest := by
    rcases List.append_eq_append_iff.mp heq with ⟨more, rfl, hmore⟩ | ⟨more, rfl, hmore⟩
    · have hnil := eq_nil_of_free_append hother hpath hmore (by simp [tokenOf])
      simpa [hnil] using hmore
    · have hnil := eq_nil_of_free_append hbefore hinner hmore (by simp [tokenOf])
      simpa [hnil] using hmore.symm
  have hpaths : path ++ '}' :: after = inner ++ '}' :: rest := by simpa [tokenOf] using hsame
  have hfound := Text.findMark?_append_singleton hpath.closing after
  rw [hpaths, Text.findMark?_append_singleton hinner.closing rest] at hfound
  simp only [Option.some.injEq, Prod.mk.injEq, List.cons.injEq, true_and] at hfound
  exact ⟨hfound.1.symm, hfound.2.symm⟩

theorem hasToken_iff {before path : List Char} (hbefore : IsFree before) (hpath : IsDataPath path)
    (after token : List Char) : Text.HasToken (before ++ (tokenOf path ++ after)) token ↔
      token = tokenOf path ∨ Text.HasToken after token := by
  constructor
  · intro h
    generalize htext : before ++ (tokenOf path ++ after) = text at h
    cases h with
    | first hother hinner rest =>
      exact Or.inl (by rw [(first_token_unique hbefore hpath hother hinner htext).1])
    | later hother hinner h =>
      exact Or.inr ((first_token_unique hbefore hpath hother hinner htext).2 ▸ h)
  · rintro (rfl | h)
    · exact .first hbefore hpath after
    · exact .later hbefore hpath h

/-- What is taken at the front of a text is a token of data. -/
theorem exists_path_of_tokenAt? {text token : List Char} (h : tokenAt? text = some token) :
    ∃ path after, IsDataPath path ∧ token = tokenOf path ∧ text = tokenOf path ++ after := by
  rw [tokenAt?] at h
  split at h
  · rename_i hmark
    obtain ⟨⟨before, found⟩, hfound, rfl⟩ := Option.map_eq_some_iff.mp h
    obtain ⟨after, rfl⟩ := Text.prefix_of_findMark? hfound
    have htext := Text.append_of_findMark? hfound
    have hclosing := Text.not_mem_of_findMark? hfound
    rw [List.isPrefixOf_iff_prefix, htext] at hmark
    obtain ⟨tail, rfl⟩ := Text.prefix_of_prefix_append_cons (by decide) hmark
    refine ⟨"data.".toList ++ tail, after, ⟨⟨tail, rfl⟩, fun hmem => hclosing ?_⟩, rfl, ?_⟩
    · simpa [referenceMark_eq] using hmem
    · simp [htext, tokenOf, referenceMark_eq]
  · cases h

/-- A text that is looked up as a whole is one token of data. -/
theorem exists_path_of_lookup? {text : List Char} {w : Value} (h : lookup? resolved text = some w) :
    ∃ path, IsDataPath path ∧ '{' ∉ path ∧ text = tokenOf path := by
  obtain ⟨path, hpath, h⟩ := Option.bind_eq_some_iff.mp h
  have htext := eq_tokenOf_of_tokenPath? hpath
  split at h
  · cases h
  · rename_i hbraces
    split at h
    · rename_i type name rest hpieces
      simp only [Bool.or_eq_true, List.contains_iff_mem, not_or] at hbraces
      have hparts : Text.pieces '.' path = ("data" :: type :: name :: rest).map String.toList := by
        simp [← hpieces, Function.comp_def]
      have hdata : path = "data.".toList ++ ['.'].intercalate ((type :: name :: rest).map String.toList) := by
        rw [← Text.intercalate_pieces '.' path, hparts]
        simp [List.intercalate_cons_cons]
      exact ⟨path, ⟨⟨_, hdata.symm⟩, hbraces.2⟩, hbraces.1, htext⟩
    · cases h

/-- Marks that are not closed are copied like everything else. -/
theorem splice_of_no_token (resolved : Entries Value) {text : List Char}
    (h : ∀ token, ¬ Text.HasToken text token) : splice resolved 0 text = text := by
  induction text with
  | nil => rw [splice]
  | cons c rest ih =>
    have hnone : tokenAt? (c :: rest) = none := by
      rw [Option.eq_none_iff_forall_ne_some]
      intro token htoken
      obtain ⟨path, after, hpath, -, htext⟩ := exists_path_of_tokenAt? htoken
      exact h _ (htext ▸ Text.HasToken.front hpath after)
    have hrest := ih fun token hread => h token (hread.cons hnone)
    rw [splice, hnone]
    simp [hrest]

/-- Where no token that is read is known, the text is written as it was read. -/
theorem splice_of_unknown {text : List Char}
    (h : ∀ token, Text.HasToken text token → lookup? resolved token = none) :
    splice resolved 0 text = text := by
  induction text using Text.token_induction with
  | plain text hplain => exact splice_of_no_token resolved hplain
  | first before path after hbefore hpath ih =>
    have hafter := ih fun token hread => h token (.later hbefore hpath hread)
    have htoken := h _ (.first hbefore hpath after)
    rw [splice_first resolved hbefore hpath, hafter, tokenText, htoken]

theorem lookup?_of_unknown {text : List Char}
    (h : ∀ token, Text.HasToken text token → lookup? resolved token = none) :
    lookup? resolved text = none := by
  rw [Option.eq_none_iff_forall_ne_some]
  intro w hw
  obtain ⟨path, hpath, _, rfl⟩ := exists_path_of_lookup? hw
  have hwhole : Text.HasToken (tokenOf path) (tokenOf path) := by
    simpa using Text.HasToken.front hpath []
  rw [h _ hwhole] at hw
  cases hw

theorem replaceText_of_unknown {text : String}
    (h : ∀ token, Text.HasToken text.toList token → lookup? resolved token = none) :
    replaceText resolved text = .string text := by
  rw [replaceText_of_none resolved (lookup?_of_unknown h), splice_of_unknown h, String.ofList_toList]

mutual
theorem replace_of_unknown : (v : Value) →
    (∀ text ∈ v.texts, ∀ token, Text.HasToken text.toList token → lookup? resolved token = none) →
      replace resolved v = v
  | .string text, h => replaceText_of_unknown (h text (by simp [Value.texts]))
  | .placeholder token, h => by
    rw [replace, lookup?_of_unknown (h token (by simp [Value.texts])), Option.getD_none]
  | .list items, h => by
    rw [replace, replaceItems_of_unknown items h]
  | .map entries, h => by
    rw [replace, replaceEntries_of_unknown entries h]
  | .bool _, _ => rfl
  | .number _, _ => rfl
theorem replaceItems_of_unknown : (items : List Value) →
    (∀ text ∈ Value.textsOfItems items, ∀ token, Text.HasToken text.toList token →
      lookup? resolved token = none) → replaceItems resolved items = items
  | [], _ => rfl
  | item :: rest, h => by
    have hitem := replace_of_unknown item fun text ht => h text (List.mem_append_left _ ht)
    have hrest := replaceItems_of_unknown rest fun text ht => h text (List.mem_append_right _ ht)
    rw [replaceItems, hitem, hrest]
theorem replaceEntries_of_unknown : (entries : List (String × Value)) →
    (∀ text ∈ Value.textsOfEntries entries, ∀ token, Text.HasToken text.toList token →
      lookup? resolved token = none) → replaceEntries resolved entries = entries
  | [], _ => rfl
  | (key, value) :: rest, h => by
    have hvalue := replace_of_unknown value fun text ht => h text (List.mem_append_left _ ht)
    have hrest := replaceEntries_of_unknown rest fun text ht => h text (List.mem_append_right _ ht)
    rw [replaceEntries, hvalue, hrest]
end

theorem lookup?_nil (text : List Char) : lookup? [] text = none := by
  rw [lookup?]
  cases hpath : tokenPath? text with
  | none => rfl
  | some path =>
    simp only [Option.bind_eq_bind, Option.bind_some]
    split
    · rfl
    · split <;> rfl

theorem replace_of_nothingKnown (v : Value)
    (h : ∀ text ∈ v.texts, NothingKnown resolved text.toList) : replace resolved v = v :=
  replace_of_unknown v fun text ht _ hread => h text ht _ hread.isInfix

theorem replaceEntries_nil (entries : Entries Value) : replaceEntries [] entries = entries :=
  replaceEntries_of_unknown entries fun _ _ token _ => lookup?_nil token

end Substitution

theorem NothingKnown.of_nil (text : List Char) : NothingKnown [] text :=
  fun part _ => lookup?_nil part

theorem Resource.substitute_nil (r : Resource) : r.substitute [] = r := by
  rw [substitute, replaceEntries_nil]

end TemplateCost
