import Mathlib.Data.List.TakeDrop
import TemplateCost.Text.Reader

/-! # Laws of readers

A reader on a text is a function of the text alone, so that sequences, alternatives and options
are opened by one equation each. A class of characters is taken up to the first character outside it, and
repetition takes one item after the other until no further one can be read. What a reader can find at all
is passed on from its parts.
-/
namespace TemplateCost.Text.Reader
variable {α β σ : Type}

theorem bind_apply (p : Reader α) (f : α → Reader β) (text : List Char) :
    (p >>= f) text = (p text).bind fun found => f found.1 found.2 := rfl

theorem pure_apply (a : α) (text : List Char) : (pure a : Reader α) text = some (a, text) := rfl

theorem map_apply (f : α → β) (p : Reader α) (text : List Char) :
    (f <$> p) text = (p text).map fun found => (f found.1, found.2) := by
  have hbind : (f <$> p) text = (p text).bind fun found => some (f found.1, found.2) := rfl
  rw [hbind]
  cases p text <;> rfl

theorem seqRight_apply (p : Reader α) (q : Reader β) (text : List Char) :
    (p *> q) text = (p text).bind fun found => q found.2 := rfl

theorem orElse_apply (p q : Reader α) (text : List Char) :
    (p <|> q) text = (p text).or (q text) := by
  have halternative : (p <|> q) text = (p text <|> q text) := rfl
  rw [halternative]
  cases p text <;> rfl

theorem optional_apply (p : Reader α) (text : List Char) :
    optional p text = some (match p text with
      | some (a, rest) => (some a, rest)
      | none => (none, text)) := by
  rw [optional, orElse_apply, map_apply, pure_apply]
  cases p text <;> rfl

theorem lift_apply (o : Option α) (text : List Char) :
    (liftM o : Reader α) text = o.map fun a => (a, text) := by
  cases o <;> rfl

theorem guardThat_apply (b : Bool) (text : List Char) :
    guardThat b text = if b then some ((), text) else none := by
  cases b <;> rfl

theorem ahead_apply (p : Reader α) (text : List Char) :
    ahead p text = some ((p text).isSome, text) := rfl

theorem peek?_apply (text : List Char) : peek? text = some (text.head?, text) := rfl

theorem char_cons (c d : Char) (rest : List Char) :
    char c (d :: rest) = if c = d then some ((), rest) else none := rfl

theorem char_eq_none {c : Char} {text : List Char} (h : ∀ d ∈ text.head?, d ≠ c) :
    char c text = none := by
  cases text with
  | nil => rfl
  | cons d rest => rw [char_cons, if_neg (h d rfl).symm]

/-! ## Classes of characters -/

theorem span_append {p : Char → Bool} {taken rest : List Char} (htaken : ∀ c ∈ taken, p c = true)
    (hrest : ∀ c ∈ rest.head?, p c = false) : span p (taken ++ rest) = some (taken, rest) := by
  have hfirst : rest.takeWhile p = [] ∧ rest.dropWhile p = rest := by
    cases rest with
    | nil => exact ⟨rfl, rfl⟩
    | cons c rest => simp [hrest c rfl]
  rw [span, List.span_eq_takeWhile_dropWhile, List.takeWhile_append_of_pos htaken,
    List.dropWhile_append_of_pos htaken, hfirst.1, hfirst.2, List.append_nil]

theorem span1_append {p : Char → Bool} {taken rest : List Char} (hne : taken ≠ [])
    (htaken : ∀ c ∈ taken, p c = true) (hrest : ∀ c ∈ rest.head?, p c = false) :
    span1 p (taken ++ rest) = some (taken, rest) := by
  rw [span1, bind_apply, span_append htaken hrest, Option.bind_some, if_neg]
  · rfl
  · simpa using hne

/-- The class begins with no character of the text. -/
theorem span1_eq_none {p : Char → Bool} {text : List Char} (h : ∀ c ∈ text.head?, p c = false) :
    span1 p text = none := by
  have hnone : ∀ c ∈ ([] : List Char), p c = true := nofun
  have htaken := span_append hnone h
  rw [List.nil_append] at htaken
  rw [span1, bind_apply, htaken]
  rfl

/-! ## Repetition -/

section
variable {p : Reader α} {written : α → List Char} {rest : List Char} {Follows : List Char → Prop}

/-- Items are read one after the other as long as each of them may be followed by the next. -/
theorem repeated_flatMap (hend : p rest = none) {items : List α}
    (hfollows : ∀ after, Follows (List.flatMap written after ++ rest))
    (hread : ∀ item ∈ items, ∀ next, Follows next → p (written item ++ next) = some (item, next))
    {fuel : List Char} (hfuel : items.length ≤ fuel.length) :
    repeated (fun _ => do pure (← p, ())) fuel () (items.flatMap written ++ rest) =
      ((items, ()), rest) := by
  induction items generalizing fuel with
  | nil =>
    cases fuel with
    | nil => rfl
    | cons c fuel => simp [repeated, bind_apply, hend]
  | cons item items ih =>
    obtain ⟨hitem, hitems⟩ := List.forall_mem_cons.mp hread
    cases fuel with
    | nil => simp at hfuel
    | cons c fuel =>
      have hrest := ih hitems (Nat.le_of_succ_le_succ hfuel)
      rw [List.flatMap_cons, List.append_assoc, repeated, bind_apply, hitem _ (hfollows items)]
      simp only [Option.bind_some, pure_apply, hrest]

theorem length_le_flatMap {items : List α} (hne : ∀ item ∈ items, written item ≠ []) :
    items.length ≤ (items.flatMap written).length := by
  induction items with
  | nil => simp
  | cons item items ih =>
    obtain ⟨hitem, hitems⟩ := List.forall_mem_cons.mp hne
    have hpos := List.length_pos_iff.mpr hitem
    have hrest := ih hitems
    simp only [List.flatMap_cons, List.length_append, List.length_cons]
    omega

theorem many_flatMap (hend : p rest = none) {items : List α}
    (hne : ∀ item ∈ items, written item ≠ [])
    (hfollows : ∀ after, Follows (List.flatMap written after ++ rest))
    (hread : ∀ item ∈ items, ∀ next, Follows next → p (written item ++ next) = some (item, next)) :
    many p (items.flatMap written ++ rest) = some (items, rest) := by
  have hfuel : items.length ≤ (items.flatMap written ++ rest).length := by
    have hitems := length_le_flatMap hne
    rw [List.length_append]
    omega
  rw [many, map_apply, manyFrom, repeated_flatMap hend hfollows hread hfuel, Option.map_some]

end

/-! ## What can be found -/

/-- Whatever text it reads, the reader finds only what has this property. -/
def Yields (P : α → Prop) (p : Reader α) : Prop :=
  ∀ text a rest, p text = some (a, rest) → P a

section
variable {P : α → Prop} {Q : β → Prop} {p : Reader α}

theorem yields_pure {a : α} (h : P a) : Yields P (pure a) := by
  intro text b rest hread
  cases hread
  exact h

theorem yields_lift {o : Option α} (h : ∀ a ∈ o, P a) : Yields P (liftM o : Reader α) := by
  intro text a rest hread
  rw [lift_apply] at hread
  obtain ⟨b, hb, hsame⟩ := Option.map_eq_some_iff.mp hread
  cases hsame
  exact h a hb

theorem Yields.bind {f : α → Reader β} (hp : Yields P p) (hf : ∀ a, P a → Yields Q (f a)) :
    Yields Q (p >>= f) := by
  intro text b rest hread
  rw [bind_apply] at hread
  obtain ⟨⟨a, left⟩, ha, hb⟩ := Option.bind_eq_some_iff.mp hread
  exact hf a (hp text a left ha) left b rest hb

/-- Of what is read first, nothing need be known. -/
theorem yields_bind {f : α → Reader β} (hf : ∀ a, Yields Q (f a)) : Yields Q (p >>= f) := by
  have hany : Yields (fun _ => True) p := fun _ _ _ _ => trivial
  exact hany.bind fun a _ => hf a

theorem Yields.map {f : α → β} (hp : Yields P p) (hf : ∀ a, P a → Q (f a)) : Yields Q (f <$> p) := by
  intro text b rest hread
  rw [map_apply] at hread
  obtain ⟨⟨a, left⟩, ha, hsame⟩ := Option.map_eq_some_iff.mp hread
  cases hsame
  exact hf a (hp text a left ha)

theorem Yields.repeated (hp : Yields P p) (fuel text : List Char) :
    ∀ a ∈ (repeated (fun _ => do pure (← p, ())) fuel () text).1.1, P a := by
  induction fuel generalizing text with
  | nil => simp [Reader.repeated]
  | cons c fuel ih =>
    simp only [Reader.repeated, bind_apply]
    cases hread : p text with
    | none => simp
    | some found =>
      simp only [Option.bind_some, pure_apply, List.mem_cons]
      rintro a (rfl | ha)
      · exact hp text _ _ hread
      · exact ih found.2 a ha

theorem Yields.many (hp : Yields P p) : Yields (fun items => ∀ a ∈ items, P a) (many p) := by
  intro text items rest hread
  simp only [Reader.many, map_apply, manyFrom, Option.map_some, Option.some.injEq, Prod.mk.injEq]
    at hread
  obtain ⟨rfl, _⟩ := hread
  exact hp.repeated text text

end

end TemplateCost.Text.Reader
