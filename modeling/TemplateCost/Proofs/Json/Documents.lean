import TemplateCost.Proofs.Double.Exact
import TemplateCost.Proofs.Json.Scalars

/-! # Reading documents back

Both forms of a document are read back as the document. They differ in the blanks around the parts
of a container alone, so that one law of the reader of items serves both, and the induction is on the
document's nesting. What a reader gives back as it was written is `Readable`: the containers nest
no deeper than the reader goes, whole numbers have 64 bits, and doubles are finite.
-/
namespace TemplateCost.Json
open Text Text.Reader

/-! ## Blanks -/

theorem spaces_append {blank text : List Char} (hblank : ∀ c ∈ blank, isSpace c = true)
    (htext : ∀ c ∈ text.head?, isSpace c = false) : spaces (blank ++ text) = some ((), text) := by
  rw [spaces, bind_apply, span_append hblank htext]
  rfl

theorem spaces_of_head {text : List Char} (htext : ∀ c ∈ text.head?, isSpace c = false) :
    spaces text = some ((), text) := by
  have hnone : ∀ c ∈ ([] : List Char), isSpace c = true := nofun
  exact spaces_append hnone htext

theorem joined_cons (separator part : List Char) (parts : List (List Char)) :
    joined separator (part :: parts) = part ++ parts.flatMap (separator ++ ·) := by
  induction parts generalizing part with
  | nil => simp [joined]
  | cons next rest ih => simp [joined, ih]

theorem endsNumber_cons {c : Char} {rest : List Char}
    (h : c = ',' ∨ c = ']' ∨ c = '}' ∨ isSpace c = true) : EndsNumber (c :: rest) := by
  have hc : c.isDigit = false ∧ c ≠ '.' ∧ c ≠ 'e' ∧ c ≠ 'E' := by
    simp only [isSpace, Bool.or_eq_true, decide_eq_true_eq] at h
    rcases h with rfl | rfl | rfl | ((rfl | rfl) | rfl) | rfl <;> decide
  rintro d ⟨⟩
  exact hc

/-! ## Containers -/

section
variable {α : Type} {item : Reader α}

theorem head?_of_read (hitem : ∀ c text, isSpace c = true → item (c :: text) = none)
    {text next : List Char} {a : α} (h : item text = some (a, next)) :
    ∀ c ∈ text.head?, isSpace c = false := by
  intro c hc
  cases text with
  | nil => cases hc
  | cons d text =>
    cases hc
    by_contra hspace
    rw [hitem c text (by simpa using hspace)] at h
    cases h

variable {close : Char} {lead gap tail rest : List Char}

theorem items_joined (written : α → List Char) (xs : List α)
    (hlead : ∀ c ∈ lead, isSpace c = true) (hgap : ∀ c ∈ gap, isSpace c = true)
    (htail : ∀ c ∈ tail, isSpace c = true) (hclose : close = ']' ∨ close = '}')
    (hitem : ∀ c text, isSpace c = true → item (c :: text) = none) (hstop : item (close :: rest) = none)
    (hread : ∀ x ∈ xs, ∀ next, EndsNumber next → item (written x ++ next) = some (x, next)) :
    items item close (lead ++ (joined (',' :: gap) (xs.map written) ++ (tail ++ close :: rest))) =
      some (xs, rest) := by
  have hend : ∀ c ∈ (close :: rest).head?, isSpace c = false := by
    rintro c ⟨⟩
    rcases hclose with rfl | rfl <;> decide
  cases xs with
  | nil =>
    have hblank : ∀ c ∈ lead ++ tail, isSpace c = true :=
      fun c hc => (List.mem_append.mp hc).elim (hlead c) (htail c)
    rw [List.map_nil, joined, List.nil_append, ← List.append_assoc, items, bind_apply,
      spaces_append hblank hend]
    simp [bind_apply, map_apply, orElse_apply, hstop, pure_apply, spaces_of_head hend, char_cons]
  | cons x xs =>
    obtain ⟨hx, hxs⟩ := List.forall_mem_cons.mp hread
    have hleft : EndsNumber (tail ++ close :: rest) := by
      cases tail with
      | nil => exact endsNumber_cons (Or.inr (hclose.imp_right Or.inl))
      | cons c tail => exact endsNumber_cons (Or.inr (Or.inr (Or.inr (htail c (by simp)))))
    have hcomma : char ',' (close :: rest) = none := by
      refine char_eq_none ?_
      rintro c ⟨⟩
      rcases hclose with rfl | rfl <;> decide
    have hfollows : ∀ after : List α,
        EndsNumber (after.flatMap (fun y => ',' :: (gap ++ written y)) ++ (tail ++ close :: rest)) := by
      intro after
      cases after with
      | nil => exact hleft
      | cons y after => exact endsNumber_cons (Or.inl rfl)
    have hmany : many (do spaces; char ','; spaces; item)
        (xs.flatMap (fun y => ',' :: (gap ++ written y)) ++ (tail ++ close :: rest)) =
          some (xs, tail ++ close :: rest) := by
      refine many_flatMap ?_ (by simp) hfollows ?_
      · rw [bind_apply, spaces_append htail hend, Option.bind_some, bind_apply, hcomma]
        rfl
      · intro y hy next hnext
        have hy := hxs y hy next hnext
        have hcommaHead : ∀ c ∈ (',' :: (gap ++ (written y ++ next))).head?, isSpace c = false := by
          rintro c ⟨⟩
          decide
        rw [List.cons_append, List.append_assoc, bind_apply, spaces_of_head hcommaHead, Option.bind_some,
          bind_apply, char_cons, if_pos rfl, Option.bind_some, bind_apply,
          spaces_append hgap (head?_of_read hitem hy), Option.bind_some, hy]
    have hfirst := hx _ (hfollows xs)
    have hwritten : joined (',' :: gap) ((x :: xs).map written) =
        written x ++ xs.flatMap (fun y => ',' :: (gap ++ written y)) := by
      rw [List.map_cons, joined_cons, List.flatMap_map]
      rfl
    rw [hwritten, List.append_assoc, items, bind_apply, spaces_append hlead (head?_of_read hitem hfirst)]
    simp [bind_apply, map_apply, orElse_apply, hfirst, hmany, pure_apply, spaces_append htail hend, char_cons]
end

/-! ## Values -/

/-- A document that is read back by a reader that goes so many levels deep: its containers do not nest
deeper, its integers have 64 bits, and its doubles are finite and read back. -/
inductive Readable : ℕ → Json → Prop
  | null {n : ℕ} : Readable n .null
  | bool {n : ℕ} (b : Bool) : Readable n (.bool b)
  | int {n : ℕ} {i : Int} (h : IsWhole i) : Readable n (.int i)
  | float {n : ℕ} {f : Float} (hfinite : f.isFinite = true) (h : ReadsBack f) : Readable n (.float f)
  | string {n : ℕ} (text : String) : Readable n (.string text)
  | array {n : ℕ} {items : List Json} (h : ∀ item ∈ items, Readable n item) :
      Readable (n + 1) (.array items)
  | object {n : ℕ} {fields : List (String × Json)} (h : ∀ field ∈ fields, Readable n field.2) :
      Readable (n + 1) (.object fields)

theorem compactItems_eq_map (items : List Json) : compactItems items = items.map compact := by
  induction items with
  | nil => rfl
  | cons item rest ih => rw [compactItems, ih, List.map_cons]

theorem compactFields_eq_map (fields : List (String × Json)) :
    compactFields fields = fields.map fun field => stringText field.1 ++ ':' :: compact field.2 := by
  induction fields with
  | nil => rfl
  | cons field rest ih => rw [compactFields, ih, List.map_cons]

theorem indentedItems_eq_map (level : ℕ) (items : List Json) :
    indentedItems level items = items.map (indented level) := by
  induction items with
  | nil => rfl
  | cons item rest ih => rw [indentedItems, ih, List.map_cons]

theorem indentedFields_eq_map (level : ℕ) (fields : List (String × Json)) :
    indentedFields level fields =
      fields.map fun field => stringText field.1 ++ ':' :: ' ' :: indented level field.2 := by
  induction fields with
  | nil => rfl
  | cons field rest ih => rw [indentedFields, ih, List.map_cons]

/-! ## Reading them back -/

section
variable (levels : ℕ) (rest : List Char) {lead gap tail : List Char} {written : Json → List Char}

theorem value_array (hlead : ∀ c ∈ lead, isSpace c = true) (hgap : ∀ c ∈ gap, isSpace c = true)
    (htail : ∀ c ∈ tail, isSpace c = true) {list : List Json}
    (hread : ∀ item ∈ list, ∀ next, EndsNumber next →
      value levels (written item ++ next) = some (item, next)) :
    value (levels + 1) ('[' :: (lead ++ (joined (',' :: gap) (list.map written) ++ (tail ++ ']' :: rest)))) =
      some (.array list, rest) := by
  have hstop : value levels (']' :: rest) = none := value_of_head (by decide) (by decide)
  have hitems := items_joined written list hlead hgap htail (Or.inl rfl) (value_of_isSpace levels) hstop hread
  change (Json.array <$> items (value levels) ']') _ = _
  rw [map_apply, hitems, Option.map_some]

theorem field_of_head {c : Char} {p : Reader Json} {text : List Char} (h : c ≠ '\x22') :
    field p (c :: text) = none := by
  rw [field, bind_apply, quoted, bind_apply, char_cons, if_neg h.symm]
  rfl

theorem field_stringText {p : Reader Json} (key : String) {document : Json} {text next : List Char}
    (hgap : ∀ c ∈ gap, isSpace c = true) (hspace : ∀ c text, isSpace c = true → p (c :: text) = none)
    (hread : p text = some (document, next)) :
    field p (stringText key ++ ':' :: (gap ++ text)) = some ((key, document), next) := by
  have hcolon : ∀ c ∈ (':' :: (gap ++ text)).head?, isSpace c = false := by
    rintro c ⟨⟩
    decide
  rw [field, bind_apply, quoted_stringText, Option.bind_some, bind_apply, spaces_of_head hcolon,
    Option.bind_some, bind_apply, char_cons, if_pos rfl, Option.bind_some, bind_apply,
    spaces_append hgap (head?_of_read hspace hread), Option.bind_some, bind_apply, hread]
  rfl

theorem value_object {inner : List Char} (hlead : ∀ c ∈ lead, isSpace c = true)
    (hgap : ∀ c ∈ gap, isSpace c = true) (htail : ∀ c ∈ tail, isSpace c = true)
    (hinner : ∀ c ∈ inner, isSpace c = true) {fields : List (String × Json)}
    (hread : ∀ field ∈ fields, ∀ next, EndsNumber next →
      value levels (written field.2 ++ next) = some (field.2, next)) :
    value (levels + 1) ('{' :: (lead ++ (joined (',' :: gap)
        (fields.map fun field => stringText field.1 ++ ':' :: (inner ++ written field.2)) ++
          (tail ++ '}' :: rest)))) = some (.object fields, rest) := by
  have hstop : field (value levels) ('}' :: rest) = none := field_of_head (by decide)
  have hspace : ∀ c text, isSpace c = true → field (value levels) (c :: text) = none := by
    intro c text hc
    refine field_of_head ?_
    rintro rfl
    revert hc
    decide
  have hentries : ∀ field ∈ fields, ∀ next, EndsNumber next →
      Json.field (value levels) (stringText field.1 ++ ':' :: (inner ++ written field.2) ++ next) =
        some (field, next) := by
    intro field hfield next hnext
    have hvalue := hread field hfield next hnext
    rw [List.append_assoc, List.cons_append, List.append_assoc,
      field_stringText field.1 hinner (value_of_isSpace levels) hvalue]
  have hfields := items_joined _ fields hlead hgap htail (Or.inr rfl) hspace hstop hentries
  change (Json.object <$> items (field (value levels)) '}') _ = _
  rw [map_apply, hfields, Option.map_some]

end

theorem isSpace_lineBreak (level : ℕ) : ∀ c ∈ lineBreak level, isSpace c = true := by
  intro c hc
  rcases List.mem_cons.mp hc with rfl | hc
  · rfl
  · rw [List.eq_of_mem_replicate hc]
    rfl

/-- What a scalar is written as is read back, in both forms and under any number of containers. -/
theorem value_scalar {levels : ℕ} {document : Json} (h : Readable levels document)
    (hscalar : ∀ list, document ≠ .array list) (hscalar' : ∀ fields, document ≠ .object fields)
    {rest : List Char} (hrest : EndsNumber rest) :
    value levels (scalarText document ++ rest) = some (document, rest) := by
  cases h with
  | null => exact value_null levels rest
  | bool b => exact value_bool levels b rest
  | int hi => exact value_of_number levels (number_integerText hi hrest)
  | float hfinite hf =>
    obtain ⟨b, hb⟩ := Option.isSome_iff_exists.mp ((Double.isSome_ofFloat? _).trans hfinite)
    exact value_of_number levels (number_text hb hf hrest)
  | string text => exact value_stringText levels text rest
  | array _ => exact absurd rfl (hscalar _)
  | object _ => exact absurd rfl (hscalar' _)

theorem value_compact {levels : ℕ} {document : Json} (h : Readable levels document) {rest : List Char}
    (hrest : EndsNumber rest) : value levels (compact document ++ rest) = some (document, rest) := by
  have hblank : ∀ c ∈ ([] : List Char), isSpace c = true := nofun
  induction h generalizing rest with
  | null => exact value_scalar .null nofun nofun hrest
  | bool b => exact value_scalar (.bool b) nofun nofun hrest
  | int hi => exact value_scalar (.int hi) nofun nofun hrest
  | float hfinite hf => exact value_scalar (.float hfinite hf) nofun nofun hrest
  | string text => exact value_scalar (.string text) nofun nofun hrest
  | @array n list _ ih =>
    have hread := value_array n rest hblank hblank hblank
      fun item hitem next hnext => ih item hitem hnext
    rw [compact, compactItems_eq_map, List.cons_append, List.append_assoc]
    exact hread
  | @object n fields _ ih =>
    have hread := value_object n rest hblank hblank hblank hblank
      fun field hfield next hnext => ih field hfield hnext
    rw [compact, compactFields_eq_map, List.cons_append, List.append_assoc]
    exact hread

theorem value_indented {levels : ℕ} {document : Json} (h : Readable levels document) (level : ℕ)
    {rest : List Char} (hrest : EndsNumber rest) :
    value levels (indented level document ++ rest) = some (document, rest) := by
  induction h generalizing level rest with
  | null => exact value_scalar .null nofun nofun hrest
  | bool b => exact value_scalar (.bool b) nofun nofun hrest
  | int hi => exact value_scalar (.int hi) nofun nofun hrest
  | float hfinite hf => exact value_scalar (.float hfinite hf) nofun nofun hrest
  | string text => exact value_scalar (.string text) nofun nofun hrest
  | @array n list _ ih =>
    cases list with
    | nil =>
      have hempty : Readable (n + 1) (.array []) := .array (by simp)
      have hread := value_compact hempty hrest
      rw [indented]
      exact hread
    | cons item list =>
      have hread := value_array n rest (isSpace_lineBreak (level + 1))
        (isSpace_lineBreak (level + 1)) (isSpace_lineBreak level)
        fun item hitem next hnext => ih item hitem (level + 1) hnext
      rw [indented, indentedItems_eq_map, ← List.map_cons, List.cons_append, List.append_assoc,
        List.append_assoc, List.append_assoc, List.singleton_append]
      exact hread
  | @object n fields _ ih =>
    cases fields with
    | nil =>
      have hempty : Readable (n + 1) (.object []) := .object (by simp)
      have hread := value_compact hempty hrest
      rw [indented]
      exact hread
    | cons field fields =>
      have hspace : ∀ c ∈ [' '], isSpace c = true := List.forall_mem_singleton.mpr rfl
      have hread := value_object n rest (isSpace_lineBreak (level + 1))
        (isSpace_lineBreak (level + 1)) (isSpace_lineBreak level) hspace
        fun field hfield next hnext => ih field hfield (level + 1) hnext
      rw [indented, ← indentedFields, indentedFields_eq_map, List.cons_append, List.append_assoc,
        List.append_assoc, List.append_assoc, List.singleton_append]
      exact hread

/-! ## Whole texts -/

/-- Reading with another bound on the nesting. -/
def parseWithin? (levels : ℕ) (text : List Char) : Option Json :=
  whole? (do spaces; let document ← value levels; spaces; pure document) text

theorem parse?_eq_parseWithin? (text : List Char) : parse? text = parseWithin? deepest text := rfl

theorem parseWithin?_of_value {levels : ℕ} {text : List Char} {document : Json}
    (h : value levels text = some (document, [])) : parseWithin? levels text = some document := by
  have hhead := head?_of_read (value_of_isSpace levels) h
  rw [parseWithin?, whole?, bind_apply, spaces_of_head hhead, Option.bind_some, bind_apply, h]
  rfl

theorem parseWithin?_compactText {levels : ℕ} {document : Json} (h : Readable levels document) :
    parseWithin? levels document.compactText.toList = some document := by
  have hend : EndsNumber [] := nofun
  have hread := value_compact h hend
  rw [List.append_nil] at hread
  rw [compactText, String.toList_ofList, parseWithin?_of_value hread]

theorem parseWithin?_indentedText {levels : ℕ} {document : Json} (h : Readable levels document) :
    parseWithin? levels document.indentedText.toList = some document := by
  have hend : EndsNumber [] := nofun
  have hread := value_indented h 0 hend
  rw [List.append_nil] at hread
  rw [indentedText, String.toList_ofList, parseWithin?_of_value hread]

end TemplateCost.Json
