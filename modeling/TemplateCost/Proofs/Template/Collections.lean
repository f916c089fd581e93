import Mathlib.Data.List.Forall2
import Mathlib.Data.Set.Card
import TemplateCost.Proofs.Decimal.Integer
import TemplateCost.Proofs.Substitution.Nesting
import TemplateCost.Proofs.Template.Failure
import TemplateCost.Resource.Extract

/-! # Objects and lists

An object has the keys that its items render to and under each of them the value of the last item that
does. A value that fails leaves its key in place and is shown as unsupported, where a list drops it. Keys
are written in seven forms, and a key of any other form takes its item with it. So the size of a
collection is the number of its different keys, or of its items that do not fail.
-/
namespace TemplateCost

/-- What a partial function keeps of a list, item by item. -/
theorem forall₂_filterMap {α β : Type} {f : α → Option β} {p : α → Prop} [DecidablePred p]
    (hp : ∀ a, (f a).isSome = true ↔ p a) (items : List α) :
    List.Forall₂ (fun a b => f a = some b) (items.filter (p ·)) (items.filterMap f) := by
  induction items with
  | nil => exact .nil
  | cons a rest ih =>
    cases hf : f a with
    | none =>
      have hskip : ¬ p a := by
        rw [← hp a, hf]
        exact Bool.false_ne_true
      rw [List.filter_cons_of_neg (by simpa using hskip), List.filterMap_cons_none hf]
      exact ih
    | some b =>
      have hkeep : p a := (hp a).mp (by rw [hf, Option.isSome_some])
      rw [List.filter_cons_of_pos (by simpa using hkeep), List.filterMap_cons_some hf]
      exact .cons hf ih

namespace Template

/-- The text of a key that is an expression. A reference is written out and not looked up. -/
inductive Expr.Renders : Expr → String → Prop
  | string (text : String) : Renders (.string text) text
  | number (n : Numeral) : Renders (.number n) n.value.display
  | bool (b : Bool) : Renders (.bool b) (boolText b)
  | variable (name : String) : Renders (.variable name) name
  | traversal (name : String) (steps : List Step) :
      Renders (.traversal (.variable name) steps) (dotted (name :: steps.map Step.text))
  | parens {inner : Expr} {text : String} (h : Renders inner text) : Renders (.parens inner) text

inductive Key.Renders : Key → String → Prop
  | identifier (name : String) : Renders (.identifier name) name
  | expression {inner : Expr} {text : String} (h : inner.Renders text) :
      Renders (.expression inner) text

/-- The key has one of the seven forms that are written out. -/
def Key.IsRendered (key : Key) : Prop := ∃ text, key.Renders text

/-- The different keys of an object. -/
def renderedKeys (items : List (Key × Expr)) : Set String :=
  {text | ∃ item ∈ items, item.1.Renders text}

/-- `e` is the value of the last item whose key has this text. -/
inductive IsLast (text : String) (e : Expr) : List (Key × Expr) → Prop
  | intro {key : Key} (before : List (Key × Expr)) {after : List (Key × Expr)}
      (hkey : key.Renders text) (hlast : ∀ item ∈ after, ¬ item.1.Renders text) :
      IsLast text e (before ++ (key, e) :: after)

/-- What an object holds in place of an expression. -/
inductive Expr.Fills (env : Environment) (e : Expr) : Value → Prop
  | value {v : Value} (h : e.eval env = .ok v) : Fills env e v
  | failed (h : e.Fails env) : Fills env e (.placeholder "$\x7bunsupported\x7d")

/-- The map that an object stands for. -/
structure IsMapOf (env : Environment) (items : List (Key × Expr)) (entries : Entries Value) :
    Prop where
  sorted : entries.Sorted
  keys : ∀ text, text ∈ entries.keys ↔ text ∈ renderedKeys items
  values : ∀ text e v, IsLast text e items → (entries.get? text = some v ↔ e.Fills env v)

/-! ## Keys -/

theorem path?_eq_some_iff {root : Expr} {steps : List Step} {path : String} :
    path? root steps = some path ↔
      ∃ name, root = .variable name ∧ dotted (name :: steps.map Step.text) = path := by
  cases root <;> simp [path?]

theorem Expr.keyText?_eq_some_iff {text : String} : (e : Expr) →
    (e.keyText? = some text ↔ e.Renders text)
  | .parens inner => by
    rw [keyText?, keyText?_eq_some_iff inner]
    constructor
    · exact .parens
    · rintro (_ | _ | _ | _ | _ | h)
      exact h
  | .traversal root steps => by
    rw [keyText?]
    constructor
    · intro h
      obtain ⟨name, rfl, rfl⟩ := path?_eq_some_iff.mp h
      exact .traversal name steps
    · intro h
      cases h
      rfl
  | .string _ | .number _ | .bool _ | .variable _ => by
    constructor
    · intro h
      cases h
      constructor
    · intro h
      cases h
      rfl
  | .null | .quoted _ | .malformed | .call _ _ | .list _ | .object _ | .conditional _ _ _
  | .unary _ _ | .binary _ _ _ | .forEach _ _ _ => by
    constructor
    · intro h
      simp [keyText?] at h
    · intro h
      cases h

theorem Key.text?_eq_some_iff {key : Key} {text : String} :
    key.text? = some text ↔ key.Renders text := by
  cases key with
  | identifier name =>
    constructor
    · intro h
      cases h
      exact .identifier _
    · intro h
      cases h
      rfl
  | expression inner =>
    rw [text?, Expr.keyText?_eq_some_iff]
    constructor
    · exact .expression
    · rintro ⟨h⟩
      assumption

theorem Key.isSome_text?_iff {key : Key} : key.text?.isSome = true ↔ key.IsRendered := by
  simp only [Option.isSome_iff_exists, text?_eq_some_iff, IsRendered]

instance (key : Key) (text : String) : Decidable (key.Renders text) :=
  decidable_of_iff _ Key.text?_eq_some_iff

instance (key : Key) : Decidable key.IsRendered :=
  decidable_of_iff _ Key.isSome_text?_iff

theorem renderedKeys_eq (items : List (Key × Expr)) :
    renderedKeys items = ((items.filterMap fun item => item.1.text?).toFinset : Set String) := by
  ext text
  simp [renderedKeys, Key.text?_eq_some_iff]

theorem mem_renderedKeys_iff {items : List (Key × Expr)} {text : String} :
    text ∈ renderedKeys items ↔ ∃ e, IsLast text e items := by
  constructor
  · induction items with
    | nil =>
      rintro ⟨item, hitem, _⟩
      cases hitem
    | cons first rest ih =>
      rintro ⟨item, hitem, htext⟩
      -- the first item is the last one of its key only if no other has it
      by_cases hrest : text ∈ renderedKeys rest
      · obtain ⟨e, hlast⟩ := ih hrest
        obtain ⟨before, hkey, hafter⟩ := hlast
        exact ⟨e, .intro (first :: before) hkey hafter⟩
      · rcases List.mem_cons.mp hitem with rfl | hmem
        · exact ⟨item.2, .intro [] htext fun other hother h => hrest ⟨other, hother, h⟩⟩
        · exact absurd ⟨item, hmem, htext⟩ hrest
  · rintro ⟨e, before, hkey, _⟩
    exact ⟨_, List.mem_append_right before List.mem_cons_self, hkey⟩

/-! ## Objects -/

section
variable {env : Environment} {items : List (Key × Expr)}

theorem Expr.value?_eq_none_iff {e : Expr} : e.value? env = none ↔ e.Fails env := by
  rw [← eval_eq_error_iff, value?]
  cases e.eval env <;> simp [Except.toOption]

theorem Expr.isSome_value?_iff {e : Expr} : (e.value? env).isSome = true ↔ ¬ e.Fails env := by
  rw [← value?_eq_none_iff, Option.isSome_iff_ne_none]

theorem Expr.value?_eq_some_iff {e : Expr} {v : Value} :
    e.value? env = some v ↔ e.eval env = .ok v := by
  rw [value?]
  cases e.eval env <;> simp [Except.toOption]

instance (e : Expr) : Decidable (e.Fails env) :=
  decidable_of_iff ((e.value? env).isNone = true)
    (Option.isNone_iff_eq_none.trans Expr.value?_eq_none_iff)

theorem Expr.fills_iff {e : Expr} {v : Value} :
    e.Fills env v ↔ (e.value? env).getD unsupported = v := by
  cases hvalue : e.value? env with
  | none =>
    have hfails := value?_eq_none_iff.mp hvalue
    constructor
    · intro h
      cases h with
      | value h => simp [value?_eq_some_iff.mpr h] at hvalue
      | failed => rfl
    · rintro rfl
      exact .failed hfails
  | some u =>
    constructor
    · intro h
      cases h with
      | value h => simpa [value?_eq_some_iff.mpr h] using hvalue.symm
      | failed h => simp [value?_eq_none_iff.mpr h] at hvalue
    · rintro rfl
      exact .value (value?_eq_some_iff.mp hvalue)

theorem isMapOf_evalItems (env : Environment) (items : List (Key × Expr)) :
    IsMapOf env items (Entries.ofList (Expr.evalItems env items)) where
  sorted := Entries.sorted_ofList _
  keys := by
    intro text
    simp only [Entries.mem_keys_ofList, Expr.mem_keys_evalItems, Key.text?_eq_some_iff,
      renderedKeys, Set.mem_ofPred_eq]
  values := by
    rintro text e v ⟨before, hkey, hlast⟩
    simp only [← Key.text?_eq_some_iff] at hkey hlast
    rw [Expr.get?_evalItems hkey hlast, Option.some.injEq, Expr.fills_iff]

/-- Each key has a last item, so there is one such map. -/
theorem IsMapOf.unique {entries others : Entries Value} (h : IsMapOf env items entries)
    (ho : IsMapOf env items others) : entries = others := by
  apply h.sorted.eq_of_get? ho.sorted
  intro text
  by_cases htext : text ∈ renderedKeys items
  · obtain ⟨e, hlast⟩ := mem_renderedKeys_iff.mp htext
    have hfills : e.Fills env ((e.value? env).getD unsupported) := Expr.fills_iff.mpr rfl
    rw [(h.values text e _ hlast).mpr hfills, (ho.values text e _ hlast).mpr hfills]
  · have hnone : ∀ {m : Entries Value}, IsMapOf env items m → m.get? text = none := by
      intro m hm
      rwa [← Option.not_isSome_iff_eq_none, ← Entries.mem_keys_iff, hm.keys]
    rw [hnone h, hnone ho]

theorem IsMapOf.length_eq {entries : Entries Value} (h : IsMapOf env items entries) :
    entries.length = (renderedKeys items).ncard := by
  have hkeys : (entries.keys.toFinset : Set String) = renderedKeys items := by
    ext text
    simpa using h.keys text
  rw [← hkeys, Set.ncard_coe_finset, List.toFinset_card_of_nodup h.sorted.nodup_keys, Entries.keys,
    List.length_map]

theorem ncard_renderedKeys_le (items : List (Key × Expr)) :
    (renderedKeys items).ncard ≤ items.length := by
  rw [renderedKeys_eq, Set.ncard_coe_finset]
  exact (List.toFinset_card_le _).trans (List.length_filterMap_le _ _)

/-! ## Lists -/

/-- The values that a list stands for: those of the items that do not fail, in order. -/
def IsListOf (env : Environment) (items : List Expr) (values : List Value) : Prop :=
  List.Forall₂ (fun e v => e.eval env = .ok v) (items.filter fun e => ¬ e.Fails env) values

theorem isListOf_evalList (env : Environment) (items : List Expr) :
    IsListOf env items (Expr.evalList env items) := by
  rw [IsListOf, Expr.evalList_eq_filterMap]
  refine (forall₂_filterMap (fun e => Expr.isSome_value?_iff) items).imp ?_
  intro e v h
  exact Expr.value?_eq_some_iff.mp h

theorem IsListOf.unique {items : List Expr} {values others : List Value}
    (h : IsListOf env items values) (ho : IsListOf env items others) : values = others := by
  refine List.right_unique_forall₂' ?_ h ho
  intro e u v hu hv
  exact Except.ok.inj (hu.symm.trans hv)

theorem IsListOf.length_eq {items : List Expr} {values : List Value}
    (h : IsListOf env items values) :
    values.length = (items.filter fun e => ¬ e.Fails env).length :=
  (List.Forall₂.length_eq h).symm

end

/-! ## Counts -/

/-- Whatever `count` says, a block is counted by the value of its `for_each`. -/
theorem Block.instances?_of_forEach {env : Environment} {block : Block} {e : Expr} {v : Value}
    (he : block.body.attribute? "for_each" = some e) (hv : e.eval env = .ok v) :
    block.instances? env = some (Multiplicity.ofForEach v) := by
  simp only [instances?, he, Option.map_some, hv, Multiplicity.instances?]

/-- Objects and lists always have a value: the one map with the keys of the items and the last value
under each of them, and the one list of the values that do not fail. A block with such a `for_each` is
counted by the different keys and by the items that do not fail. -/
theorem collections_evaluated (env : Environment) :
    (∀ items, ∃ entries, (Expr.object items).eval env = .ok (.map entries) ∧
      ∀ others, IsMapOf env items others ↔ others = entries) ∧
    (∀ items, ∃ values, (Expr.list items).eval env = .ok (.list values) ∧
      ∀ others, IsListOf env items others ↔ others = values) ∧
    ∀ block : Block,
      (∀ items, block.body.attribute? "for_each" = some (.object items) →
        block.instances? env = some (Int64.ofInt (renderedKeys items).ncard) ∧
        (items.length < 2 ^ 63 →
          (Int64.ofInt (renderedKeys items).ncard).toInt = (renderedKeys items).ncard)) ∧
      ∀ items, block.body.attribute? "for_each" = some (.list items) →
        let kept := items.filter fun e => ¬ e.Fails env
        block.instances? env = some (Int64.ofInt kept.length) ∧
        (items.length < 2 ^ 63 → (Int64.ofInt kept.length).toInt = kept.length) := by
  refine ⟨?_, ?_, ?_⟩
  · intro items
    have hmap := isMapOf_evalItems env items
    refine ⟨_, Expr.eval_object env items, ?_⟩
    intro others
    constructor
    · intro h
      exact h.unique hmap
    · rintro rfl
      exact hmap
  · intro items
    have hlist := isListOf_evalList env items
    refine ⟨_, Expr.eval_list env items, ?_⟩
    intro others
    constructor
    · intro h
      exact h.unique hlist
    · rintro rfl
      exact hlist
  · intro block
    constructor
    · intro items hforEach
      rw [Block.instances?_of_forEach hforEach (Expr.eval_object env items),
        Multiplicity.ofForEach, (isMapOf_evalItems env items).length_eq]
      refine ⟨rfl, ?_⟩
      intro hlength
      exact (Decimal.toInt64?_ofNat ((ncard_renderedKeys_le items).trans_lt hlength)).2
    · intro items hforEach
      rw [Block.instances?_of_forEach hforEach (Expr.eval_list env items),
        Multiplicity.ofForEach, (isListOf_evalList env items).length_eq]
      refine ⟨rfl, ?_⟩
      intro hlength
      exact (Decimal.toInt64?_ofNat ((List.length_filter_le _ items).trans_lt hlength)).2

/-- Two items for one key, of which the last fails, and a list whose only item fails. -/
def zoneItems : List (Key × Expr) :=
  [(.identifier "a", .string "x"), (.expression (.parens (.string "a")), .null),
    (.expression (.traversal (.variable "var") [.member "zone"]), .list [.null])]

theorem zone_items_counted :
    let block := Block.mk "resource" ["aws_disk", "main"]
      (.mk [("for_each", .object zoneItems), ("count", .number (.integer 7))] [])
    ∃ entries : Entries Value, (Expr.object zoneItems).eval [] = .ok (.map entries) ∧
      entries.get? "a" = some (.placeholder "$\x7bunsupported\x7d") ∧
      entries.get? "var.zone" = some (.list []) ∧ block.instances? [] = some 2 := by
  intro block
  obtain ⟨hobject, _, hcounted⟩ := collections_evaluated []
  obtain ⟨entries, heval, hmap⟩ := hobject zoneItems
  have hvalues := ((hmap entries).mpr rfl).values
  refine ⟨entries, heval, ?_, ?_, ?_⟩
  · apply (hvalues "a" .null _ (.intro [_] (.expression (.parens (.string "a"))) ?_)).mpr
    · exact .failed .null
    · decide
  · apply (hvalues "var.zone" (.list [.null]) _ (.intro [_, _] (.expression (.traversal _ _)) ?_)).mpr
    · exact .value rfl
    · simp
  · have hkeys : (renderedKeys zoneItems).ncard = 2 := by
      rw [renderedKeys_eq, Set.ncard_coe_finset]
      decide
    rw [((hcounted block).1 zoneItems rfl).1, hkeys]
    rfl

end Template
end TemplateCost
