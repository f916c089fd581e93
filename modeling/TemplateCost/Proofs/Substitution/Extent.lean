import TemplateCost.Proofs.Loading.Assembly
import TemplateCost.Proofs.Substitution.Nesting
import TemplateCost.Proofs.Substitution.Tokens

/-! # What substitution changes

Substitution looks for tokens of known data in the strings and the placeholders of a value. All else stays:
keys, the items of lists in their order, integers, doubles and booleans, and in a string all other tokens
and the text around them. So it makes no difference that loading leaves the resources alone where nothing
was answered.
-/
namespace TemplateCost
open Template Substitution

/-- A token of known data, with the value that its path refers to. -/
inductive Substitution.IsKnown (resolved : Entries Value) : List Char → Value → Prop
  | mk {path : String} {w : Value} (hopening : '{' ∉ path.toList) (hclosing : '}' ∉ path.toList)
      (h : RefersTo resolved path w) : IsKnown resolved (tokenOf ("data." ++ path).toList) w

/-- A token of known data is shown as the display text of its value. Other tokens stay, and so does all
that stands between tokens, also a mark that is not closed. -/
inductive Text.Shows (resolved : Entries Value) : List Char → List Char → Prop
  | plain {text : List Char} (h : ∀ token, ¬ HasToken text token) : Shows resolved text text
  | known {before path after shown : List Char} {w : Value} (hbefore : IsFree before)
      (hpath : IsDataPath path) (hknown : IsKnown resolved (tokenOf path) w)
      (h : Shows resolved after shown) :
      Shows resolved (before ++ (tokenOf path ++ after)) (before ++ (w.display.toList ++ shown))
  | unknown {before path after shown : List Char} (hbefore : IsFree before)
      (hpath : IsDataPath path) (hnone : ∀ w, ¬ IsKnown resolved (tokenOf path) w)
      (h : Shows resolved after shown) :
      Shows resolved (before ++ (tokenOf path ++ after)) (before ++ (tokenOf path ++ shown))

/-- The values are the same but for the tokens of known data in strings, and for the strings and the
placeholders that are such a token as a whole. -/
inductive Value.DiffersAtKnown (resolved : Entries Value) : Value → Value → Prop
  | bool (b : Bool) : DiffersAtKnown resolved (.bool b) (.bool b)
  | number (n : Number) : DiffersAtKnown resolved (.number n) (.number n)
  | string {text shown : String} (h : ∀ w, ¬ IsKnown resolved text.toList w)
      (hshown : Text.Shows resolved text.toList shown.toList) :
      DiffersAtKnown resolved (.string text) (.string shown)
  | stringKnown {text : String} {w : Value} (h : IsKnown resolved text.toList w) :
      DiffersAtKnown resolved (.string text) w
  | placeholder {text : String} (h : ∀ w, ¬ IsKnown resolved text.toList w) :
      DiffersAtKnown resolved (.placeholder text) (.placeholder text)
  | placeholderKnown {text : String} {w : Value} (h : IsKnown resolved text.toList w) :
      DiffersAtKnown resolved (.placeholder text) w
  | list {items others : List Value} (hlength : others.length = items.length)
      (h : ∀ (i : ℕ) (v w : Value), items[i]? = some v → others[i]? = some w →
        DiffersAtKnown resolved v w) :
      DiffersAtKnown resolved (.list items) (.list others)
  | map {entries others : Entries Value} (hkeys : others.keys = entries.keys)
      (h : ∀ (i : ℕ) (v w : String × Value), entries[i]? = some v → others[i]? = some w →
        DiffersAtKnown resolved v.2 w.2) :
      DiffersAtKnown resolved (.map entries) (.map others)

/-- What is loaded if the answers are always put in. -/
def Loaded.substituting (bodies : List Body) (env : Environment) (sources : Option DataSources) :
    Loaded where
  inventory := .of ((resourcesOf bodies env).map (Resource.substitute (answered sources bodies env)))
  queries := ((sources.map fun s => s.queries env bodies).getD []).map Prod.snd

namespace Substitution
variable {resolved : Entries Value}

theorem lookup?_eq_some_iff_isKnown {token : List Char} {w : Value} :
    lookup? resolved token = some w ↔ IsKnown resolved token w := by
  constructor
  · intro h
    obtain ⟨path, ⟨⟨tail, rfl⟩, hclosing⟩, hopening, rfl⟩ := exists_path_of_lookup? h
    have hpath : ("data." ++ String.ofList tail).toList = "data.".toList ++ tail := by simp
    simp only [List.mem_append, not_or] at hopening hclosing
    have hrefers : RefersTo resolved (String.ofList tail) w := by
      refine (lookup?_data_eq_some_iff (by simpa using hopening.2) (by simpa using hclosing.2)).mp ?_
      rwa [toList_token_eq, hpath]
    rw [← hpath]
    exact .mk (by simpa using hopening.2) (by simpa using hclosing.2) hrefers
  · rintro ⟨hopening, hclosing, h⟩
    rw [← toList_token_eq]
    exact (lookup?_data_eq_some_iff hopening hclosing).mpr h

theorem lookup?_eq_none_iff_not_isKnown {token : List Char} :
    lookup? resolved token = none ↔ ∀ w, ¬ IsKnown resolved token w := by
  simp only [Option.eq_none_iff_forall_ne_some, ne_eq, lookup?_eq_some_iff_isKnown]

theorem shows_splice (resolved : Entries Value) (text : List Char) :
    Text.Shows resolved text (splice resolved 0 text) := by
  induction text using Text.token_induction with
  | plain text hplain =>
    rw [splice_of_no_token resolved hplain]
    exact .plain hplain
  | first before path after hbefore hpath ih =>
    rw [splice_first resolved hbefore hpath, tokenText]
    cases h : lookup? resolved (tokenOf path) with
    | none => exact .unknown hbefore hpath (lookup?_eq_none_iff_not_isKnown.mp h) ih
    | some w => exact .known hbefore hpath (lookup?_eq_some_iff_isKnown.mp h) ih

theorem replaceText_of_known {text : String} {w : Value} (h : lookup? resolved text.toList = some w) :
    replaceText resolved text = w := by
  obtain ⟨path, hpath, -, htext⟩ := exists_path_of_lookup? h
  obtain rfl : text = token (String.ofList path) := by
    rw [← String.toList_inj, toList_token_eq, String.toList_ofList, htext]
  exact replaceText_token resolved (by simpa using hpath) h

theorem differsAtKnown_replace (resolved : Entries Value) (v : Value) :
    v.DiffersAtKnown resolved (replace resolved v) := by
  induction v using Value.induction with
  | bool b => exact .bool b
  | number n => exact .number n
  | string text =>
    rw [replace]
    cases h : lookup? resolved text.toList with
    | none =>
      rw [replaceText_of_none resolved h]
      apply Value.DiffersAtKnown.string (lookup?_eq_none_iff_not_isKnown.mp h)
      rw [String.toList_ofList]
      exact shows_splice resolved text.toList
    | some w =>
      rw [replaceText_of_known h]
      exact .stringKnown (lookup?_eq_some_iff_isKnown.mp h)
  | placeholder text =>
    rw [replace]
    cases h : lookup? resolved text.toList with
    | none => exact .placeholder (lookup?_eq_none_iff_not_isKnown.mp h)
    | some w => exact .placeholderKnown (lookup?_eq_some_iff_isKnown.mp h)
  | list items ih =>
    rw [replace, replaceItems_eq_map]
    apply Value.DiffersAtKnown.list (List.length_map _)
    intro i v w hv hw
    rw [List.getElem?_map, hv] at hw
    cases hw
    exact ih v (List.mem_of_getElem? hv)
  | map entries ih =>
    rw [replace, replaceEntries_eq_mapValues]
    apply Value.DiffersAtKnown.map (Entries.keys_mapValues _ entries)
    intro i v w hv hw
    rw [Entries.mapValues, List.getElem?_map, hv] at hw
    cases hw
    exact ih v (List.mem_of_getElem? hv)

end Substitution

theorem assemble_eq_substituting (bodies : List Body) (env : Environment)
    (sources : Option DataSources) : assemble bodies env sources = .substituting bodies env sources := by
  have hresources := resources_assemble bodies env sources
  rw [Loaded.substituting, ← hresources]
  rfl

/-- Substitution changes nothing but tokens of known data. Where no such token is read at all, in particular
where no data is known, attributes stay as they are. So what is loaded is the same as if the answers were
always put in. -/
theorem only_known_tokens_change (resolved attributes : Entries Value) :
    (Value.map attributes).DiffersAtKnown resolved (.map (replaceEntries resolved attributes)) ∧
    ((∀ text ∈ Value.textsOfEntries attributes, ∀ token w, Text.HasToken text.toList token →
      ¬ IsKnown resolved token w) → replaceEntries resolved attributes = attributes) ∧
    replaceEntries [] attributes = attributes ∧
    ∀ (directory : Directory) (overrides : Entries String) (sources : Option DataSources),
      load directory overrides sources = directory.bodies.map fun bodies =>
        .substituting bodies (directory.environment overrides bodies) sources := by
  refine ⟨?_, ?_, replaceEntries_nil attributes, ?_⟩
  · have hvalue := differsAtKnown_replace resolved (.map attributes)
    rwa [replace] at hvalue
  · intro h
    refine replaceEntries_of_unknown attributes ?_
    intro text ht token hread
    exact lookup?_eq_none_iff_not_isKnown.mpr fun w => h text ht token w hread
  · intro directory overrides sources
    simp only [load_eq_map, assemble_eq_substituting]

/-- A token of known data behind a mark that is not closed before it, one that is not closed itself, and
one of other data. -/
def oddTexts : Entries Value :=
  [("nested", .string "$\x7bdata.x$\x7bdata.aws_ami.base.id\x7d"),
    ("others", .list [.string "-$\x7bdata.aws_ami.base.id", .placeholder "$\x7bdata.aws_ami.none\x7d"]),
    ("size", .number (.int 2))]

theorem odd_texts_stay :
    (∀ text ∈ Value.textsOfEntries oddTexts, ∀ token w, Text.HasToken text.toList token →
      ¬ IsKnown images token w) ∧ replaceEntries images oddTexts = oddTexts := by
  have hend : ∀ token, ¬ Text.HasToken [] token := fun token hread => absurd hread.closing_mem (by simp)
  have hunknown : ∀ text ∈ Value.textsOfEntries oddTexts, ∀ token, Text.HasToken text.toList token →
      lookup? images token = none := by
    intro text ht token hread
    simp only [oddTexts, Value.textsOfEntries, Value.texts, Value.textsOfItems, List.append_nil,
      List.cons_append, List.nil_append, List.mem_cons, List.not_mem_nil, or_false] at ht
    rcases ht with rfl | rfl | rfl
    · have hpath : IsDataPath "data.x$\x7bdata.aws_ami.base.id".toList := ⟨by decide, by decide⟩
      obtain rfl := ((hasToken_iff isFree_nil hpath [] token).mp hread).resolve_right (hend token)
      rfl
    · exact absurd hread.closing_mem (by decide)
    · have hpath : IsDataPath "data.aws_ami.none".toList := ⟨by decide, by decide⟩
      obtain rfl := ((hasToken_iff isFree_nil hpath [] token).mp hread).resolve_right (hend token)
      rfl
  have hodd : ∀ text ∈ Value.textsOfEntries oddTexts, ∀ token w, Text.HasToken text.toList token →
      ¬ IsKnown images token w := by
    intro text ht token w hread
    exact lookup?_eq_none_iff_not_isKnown.mp (hunknown text ht token hread) w
  exact ⟨hodd, (only_known_tokens_change images oddTexts).2.1 hodd⟩

end TemplateCost
