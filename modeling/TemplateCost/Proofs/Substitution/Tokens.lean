import TemplateCost.Proofs.Substitution.Splice

/-! # Texts with any number of tokens

A text is cut at its tokens into what stands before the first one and, for each of them, its path and the
text up to the next one. A token of known data is shown as the display text of its value and any other
one as itself, whatever that text holds; only a text that is a token of known data and nothing else takes
the value.
-/
namespace TemplateCost.Substitution
open Template

/-- Where the parts of a path lead inside a value: by the keys of maps and the positions of lists. -/
inductive Reaches : Value → List String → Value → Prop
  | here (v : Value) : Reaches v [] v
  | key {entries : List (String × Value)} {part : String} {rest : List String} {v w : Value}
      (hv : Entries.get? part entries = some v) (h : Reaches v rest w) :
      Reaches (.map entries) (part :: rest) w
  | item {items : List Value} {part : String} {i : Nat} {rest : List String} {v w : Value}
      (hi : Decimal.readIndex? part.toList = some i) (hv : items[i]? = some v) (h : Reaches v rest w) :
      Reaches (.list items) (part :: rest) w

/-- What a path into data refers to: its first two parts name the data, and the others lead on. -/
inductive RefersTo (resolved : Entries Value) : String → Value → Prop
  | mk {type name : String} {rest : List String} {v w : Value}
      (hparts : ∀ part ∈ type :: name :: rest, '.' ∉ part.toList)
      (hv : resolved.get? (dotted ["data", type, name]) = some v) (h : Reaches v rest w) :
      RefersTo resolved (dotted (type :: name :: rest)) w

/-- A token of data, by its path without braces, and the text up to the next one. -/
structure Segment where
  path : String
  after : String
  opening : '{' ∉ path.toList
  closing : '}' ∉ path.toList
  free : IsFree after.toList

namespace Segment

def text (s : Segment) : String := token ("data." ++ s.path) ++ s.after

end Segment

/-- The text that begins with `before` and goes on with the segments. -/
def textOf (before : String) (segments : List Segment) : String :=
  before ++ String.join (segments.map Segment.text)

/-- What the segments of a text are shown as. -/
inductive Spliced (resolved : Entries Value) : List Segment → String → Prop
  | nil : Spliced resolved [] ""
  | known {s : Segment} {segments : List Segment} {w : Value} {shown : String}
      (hw : RefersTo resolved s.path w) (h : Spliced resolved segments shown) :
      Spliced resolved (s :: segments) (w.display ++ s.after ++ shown)
  | unknown {s : Segment} {segments : List Segment} {shown : String}
      (hnone : ∀ w, ¬ RefersTo resolved s.path w) (h : Spliced resolved segments shown) :
      Spliced resolved (s :: segments) (token ("data." ++ s.path) ++ s.after ++ shown)

/-- The text is one token, of data that is known. -/
structure IsAlone (resolved : Entries Value) (before : String) (segments : List Segment) (w : Value) :
    Prop where
  start : before = ""
  single : ∃ s : Segment, segments = [s] ∧ s.after = "" ∧ RefersTo resolved s.path w

/-! ## What a token refers to -/

theorem select_eq_some_iff {v w : Value} {parts : List String} :
    select v parts = some w ↔ Reaches v parts w := by
  constructor
  · intro h
    induction parts generalizing v with
    | nil =>
      rw [select] at h
      cases h
      exact .here _
    | cons part rest ih =>
      cases v with
      | map entries =>
        rw [select] at h
        split at h
        · rename_i hv
          exact .key hv (ih h)
        · cases h
      | list items =>
        rw [select] at h
        split at h
        · rename_i hi
          split at h
          · rename_i hv
            exact .item hi hv (ih h)
          · cases h
        · cases h
      | bool _ | number _ | string _ | placeholder _ => simp [select] at h
  · intro h
    induction h with
    | here v => rw [select]
    | key hv _ ih => simp [select, hv, ih]
    | item hi hv _ ih => simp [select, hi, hv, ih]

variable {resolved : Entries Value}

theorem dotted_data {parts : List String} (hne : parts ≠ []) :
    dotted ("data" :: parts) = "data." ++ dotted parts := by
  obtain ⟨part, rest, rfl⟩ := List.exists_cons_of_ne_nil hne
  rw [← String.toList_inj, String.toList_append, toList_dotted, toList_dotted, List.map_cons,
    List.map_cons, List.intercalate_cons_cons]
  rfl

/-- A path without braces is made of parts. -/
theorem exists_parts {path : String} (hopening : '{' ∉ path.toList) (hclosing : '}' ∉ path.toList) :
    ∃ parts, parts ≠ [] ∧ path = dotted parts ∧ ∀ part ∈ parts, IsPart part := by
  refine ⟨(Text.pieces '.' path.toList).map String.ofList, ?_, ?_, ?_⟩
  · rw [Text.pieces_eq_splitOn]
    simp
  · simp [← String.toList_inj, toList_dotted, Function.comp_def, Text.intercalate_pieces]
  · intro part hpart
    obtain ⟨piece, hpiece, rfl⟩ := List.mem_map.mp hpart
    refine ⟨?_, ?_, ?_⟩ <;> rw [String.toList_ofList] <;> intro hc
    · exact (Text.mem_of_mem_pieces hpiece hc).2 rfl
    · exact hopening (Text.mem_of_mem_pieces hpiece hc).1
    · exact hclosing (Text.mem_of_mem_pieces hpiece hc).1

/-- The type of the data alone is no reference. -/
theorem lookup?_token_type {type : String} (h : IsPart type) :
    lookup? resolved (token (dotted ["data", type])).toList = none := by
  have hparts : ∀ part ∈ ["data", type], IsPart part := by
    simp [isPart_data, h]
  have hpieces := pieces_dotted hparts (by simp)
  rw [lookup?, tokenPath?_token]
  simp [hpieces]

theorem mem_dotted_of_mem {c : Char} {parts : List String} {part : String} (h : part ∈ parts)
    (hc : c ∈ part.toList) : c ∈ (dotted parts).toList := by
  rw [toList_dotted]
  induction parts with
  | nil => cases h
  | cons first rest ih =>
    cases rest with
    | nil =>
      cases List.mem_singleton.mp h
      simpa using hc
    | cons second rest =>
      rw [List.map_cons, List.map_cons, List.intercalate_cons_cons]
      rcases List.mem_cons.mp h with rfl | hlater
      · simp [hc]
      · exact List.mem_append_right _ (ih hlater)

/-- Without braces in its path, a token is read as what the path refers to. -/
theorem lookup?_data_eq_some_iff {path : String} {w : Value} (hopening : '{' ∉ path.toList)
    (hclosing : '}' ∉ path.toList) :
    lookup? resolved (token ("data." ++ path)).toList = some w ↔ RefersTo resolved path w := by
  constructor
  · intro h
    obtain ⟨parts, hne, rfl, hparts⟩ := exists_parts hopening hclosing
    rw [← dotted_data hne] at h
    match parts, hne with
    | [type], _ =>
      rw [lookup?_token_type (hparts type (by simp))] at h
      cases h
    | type :: name :: rest, _ =>
      rw [lookup?_token resolved (List.forall_mem_cons.mpr ⟨isPart_data, hparts⟩)] at h
      obtain ⟨v, hv, hselect⟩ := Option.bind_eq_some_iff.mp h
      exact .mk (fun part hp => (hparts part hp).dot) hv (select_eq_some_iff.mp hselect)
  · intro h
    cases h with
    | @mk type name rest v _ hdots hv hreach =>
      have hparts : ∀ part ∈ type :: name :: rest, IsPart part := fun part hp =>
        ⟨hdots part hp, fun hc => hopening (mem_dotted_of_mem hp hc),
          fun hc => hclosing (mem_dotted_of_mem hp hc)⟩
      rw [← dotted_data (by simp),
        lookup?_token resolved (List.forall_mem_cons.mpr ⟨isPart_data, hparts⟩), hv, Option.bind_some, select_eq_some_iff.mpr hreach]

namespace Segment

theorem lookup?_eq_some_iff (s : Segment) {w : Value} :
    lookup? resolved (token ("data." ++ s.path)).toList = some w ↔ RefersTo resolved s.path w :=
  lookup?_data_eq_some_iff s.opening s.closing

theorem lookup?_eq_none_iff (s : Segment) :
    lookup? resolved (token ("data." ++ s.path)).toList = none ↔ ∀ w, ¬ RefersTo resolved s.path w := by
  simp only [Option.eq_none_iff_forall_ne_some, ne_eq, lookup?_eq_some_iff]

theorem isDataPath (s : Segment) : IsDataPath ("data." ++ s.path).toList where
  data := ⟨s.path.toList, (String.toList_append ..).symm⟩
  closing := by simp [s.closing]

theorem toList_text (s : Segment) :
    s.text.toList = tokenOf ("data." ++ s.path).toList ++ s.after.toList := by
  rw [text, String.toList_append, toList_token_eq]

/-- Behind free text there is the end or a token. -/
theorem head?_join (segments : List Segment) :
    (String.join (segments.map text)).toList.head?.all (· = '$') := by
  cases segments with
  | nil => rfl
  | cons s segments => simp [String.join_cons, toList_text, tokenOf]

theorem join_eq_empty_iff {segments : List Segment} :
    String.join (segments.map text) = "" ↔ segments = [] := by
  cases segments with
  | nil => simp
  | cons s segments => simp [← String.toList_inj, toList_text, tokenOf]

end Segment

/-! ## One pass over the segments -/

theorem exists_spliced (resolved : Entries Value) (segments : List Segment) :
    ∃ shown, Spliced resolved segments shown := by
  induction segments with
  | nil => exact ⟨_, .nil⟩
  | cons s segments ih =>
    obtain ⟨shown, h⟩ := ih
    by_cases hknown : ∃ w, RefersTo resolved s.path w
    · obtain ⟨w, hw⟩ := hknown
      exact ⟨_, .known hw h⟩
    · exact ⟨_, .unknown (not_exists.mp hknown) h⟩

theorem tokenText_known {s : Segment} {w : Value} (h : RefersTo resolved s.path w) :
    tokenText resolved (tokenOf ("data." ++ s.path).toList) = w.display.toList := by
  rw [tokenText, ← toList_token_eq, s.lookup?_eq_some_iff.mpr h]

theorem tokenText_unknown {s : Segment} (h : ∀ w, ¬ RefersTo resolved s.path w) :
    tokenText resolved (tokenOf ("data." ++ s.path).toList) = (token ("data." ++ s.path)).toList := by
  rw [tokenText, ← toList_token_eq, s.lookup?_eq_none_iff.mpr h]

theorem splice_cons (s : Segment) (segments : List Segment) :
    splice resolved 0 (String.join ((s :: segments).map Segment.text)).toList =
      tokenText resolved (tokenOf ("data." ++ s.path).toList) ++
        (s.after.toList ++ splice resolved 0 (String.join (segments.map Segment.text)).toList) := by
  rw [List.map_cons, String.join_cons, String.toList_append, Segment.toList_text, List.append_assoc,
    splice_token resolved s.isDataPath, splice_free resolved s.free (Segment.head?_join segments)]

theorem Spliced.splice_eq {segments : List Segment} {shown : String}
    (h : Spliced resolved segments shown) :
    splice resolved 0 (String.join (segments.map Segment.text)).toList = shown.toList := by
  induction h with
  | nil => rw [List.map_nil, String.join_nil, String.toList_empty, splice]
  | known hw _ ih =>
    rw [splice_cons, tokenText_known hw, ih]
    simp
  | unknown hnone _ ih =>
    rw [splice_cons, tokenText_unknown hnone, ih]
    simp

/-- What is shown is determined by the segments. -/
theorem Spliced.unique {segments : List Segment} {shown other : String}
    (h : Spliced resolved segments shown) (hother : Spliced resolved segments other) :
    shown = other := by
  rw [← String.toList_inj, ← h.splice_eq, ← hother.splice_eq]

/-! ## Replacing the text -/

theorem IsAlone.replace_eq {before : String} {segments : List Segment} {w : Value}
    (h : IsAlone resolved before segments w) :
    replace resolved (.string (textOf before segments)) = w := by
  obtain ⟨rfl, s, rfl, hafter, hw⟩ := h
  have htext : textOf "" [s] = token ("data." ++ s.path) := by
    simp [textOf, Segment.text, hafter]
  rw [replace, htext, replaceText_token resolved s.isDataPath (s.lookup?_eq_some_iff.mpr hw)]

theorem toList_textOf_cons (before : String) (s : Segment) (segments : List Segment) :
    (textOf before (s :: segments)).toList = before.toList ++
      (tokenOf ("data." ++ s.path).toList ++
        (s.after ++ String.join (segments.map Segment.text)).toList) := by
  simp only [textOf, List.map_cons, String.join_cons, String.toList_append, Segment.toList_text,
    List.append_assoc]

/-- A text that is not one known token and nothing else is no reference as a whole. -/
theorem lookup?_textOf_eq_none {before : String} {s : Segment} {segments : List Segment}
    (h : ∀ w, ¬ IsAlone resolved before (s :: segments) w) :
    lookup? resolved (textOf before (s :: segments)).toList = none := by
  rw [toList_textOf_cons]
  by_cases hmore : before.toList ≠ [] ∨
      (s.after ++ String.join (segments.map Segment.text)).toList ≠ []
  · exact lookup?_embedded resolved hmore _
  · -- nothing stands around the token, so its data is not known
    simp only [not_or, not_not, String.toList_eq_nil_iff, String.append_eq_empty_iff] at hmore
    obtain ⟨rfl, hafter, hrest⟩ := hmore
    have hsegments := Segment.join_eq_empty_iff.mp hrest
    subst hsegments
    have hunknown := s.lookup?_eq_none_iff.mpr fun w hw => h w ⟨rfl, s, rfl, hafter, hw⟩
    simpa [hafter, toList_token_eq] using hunknown

/-- A text that is one token of known data takes the value. In any other text each token is replaced by the
display text of a known value or stays, and all that stands between the tokens stays. What is put in is
part of the result as it is, also where it looks like a token. -/
theorem tokens_replaced (resolved : Entries Value) {before : String} (hbefore : IsFree before.toList)
    (segments : List Segment) :
    (∀ w, IsAlone resolved before segments w →
      replace resolved (.string (textOf before segments)) = w) ∧
    ((∀ w, ¬ IsAlone resolved before segments w) → ∃ shown, Spliced resolved segments shown ∧
      replace resolved (.string (textOf before segments)) = .string (before ++ shown)) := by
  refine ⟨fun w h => h.replace_eq, ?_⟩
  intro h
  obtain ⟨shown, hshown⟩ := exists_spliced resolved segments
  refine ⟨shown, hshown, ?_⟩
  rw [replace]
  cases segments with
  | nil =>
    -- the mark of a token is nowhere in the text
    cases hshown
    have htext : textOf before [] = before ++ "" := by simp [textOf]
    rw [htext]
    exact replaceText_of_isFree resolved (by simpa using hbefore)
  | cons s segments =>
    have hmark : Text.contains referenceMark (textOf before (s :: segments)).toList = true := by
      rw [toList_textOf_cons]
      exact contains_referenceMark s.isDataPath _
    have hpass : splice resolved 0 (textOf before (s :: segments)).toList = (before ++ shown).toList := by
      rw [textOf, String.toList_append, splice_free resolved hbefore (Segment.head?_join _),
        hshown.splice_eq, String.toList_append]
    rw [replaceText, if_pos hmark, lookup?_textOf_eq_none h, hpass]
    simp

/-- An image whose texts look like tokens, or like the beginning of one. -/
def images : Entries Value :=
  [("data.aws_ami.base", .map [("id", .string "$\x7bdata.aws_ami.base.name\x7d"), ("name", .string "al2"),
    ("sign", .string "$")])]

def idSegment : Segment := ⟨"aws_ami.base.id", "", by decide, by decide, by decide⟩
def openSegment : Segment := ⟨"aws_ami.none", "-", by decide, by decide, by decide⟩
def signSegment : Segment :=
  ⟨"aws_ami.base.sign", "\x7bdata.aws_ami.base.name\x7d", by decide, by decide, by decide⟩

theorem shown_tokens_stay :
    replace images (.string "$\x7bdata.aws_ami.base.id\x7d") =
      .string "$\x7bdata.aws_ami.base.name\x7d" ∧
    replace images (.string ("$ \x7b$\x7bdata.aws_ami.base.id\x7d$\x7bdata.aws_ami.none\x7d-" ++
        "$\x7bdata.aws_ami.base.sign\x7d\x7bdata.aws_ami.base.name\x7d")) =
      .string ("$ \x7b$\x7bdata.aws_ami.base.name\x7d$\x7bdata.aws_ami.none\x7d-" ++
        "$\x7bdata.aws_ami.base.name\x7d") := by
  have hid : RefersTo images idSegment.path (.string "$\x7bdata.aws_ami.base.name\x7d") :=
    idSegment.lookup?_eq_some_iff.mp rfl
  have hopen : ∀ w, ¬ RefersTo images openSegment.path w :=
    openSegment.lookup?_eq_none_iff.mp rfl
  have hsign : RefersTo images signSegment.path (.string "$") :=
    signSegment.lookup?_eq_some_iff.mp rfl
  have hshown := Spliced.known hid (.unknown hopen (.known hsign .nil))
  have hnothing : IsFree "".toList := by decide
  have hbefore : IsFree "$ \x7b".toList := by decide
  have halone := (tokens_replaced images hnothing [idSegment]).1 _ ⟨rfl, idSegment, rfl, rfl, hid⟩
  have hmore : ∀ w, ¬ IsAlone images "$ \x7b" [idSegment, openSegment, signSegment] w := by
    rintro w ⟨hstart, _⟩
    simp at hstart
  obtain ⟨shown, hspliced, htext⟩ := (tokens_replaced images hbefore _).2 hmore
  rw [hspliced.unique hshown] at htext
  exact ⟨halone, htext⟩

end TemplateCost.Substitution
