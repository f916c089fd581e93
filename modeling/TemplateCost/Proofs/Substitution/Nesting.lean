import TemplateCost.Proofs.Entries
import TemplateCost.Resource.DataSource

/-! # Places inside values

An expression inside lists, objects and nested blocks has its value at a definite place of the value
of the whole: at the position that is left when failing items are dropped, or under a key that
nothing later writes again. Substitution keeps all places and replaces what stands there.
-/
namespace TemplateCost
open Template Substitution

/-- One step into a value. -/
inductive Spot
  | key (name : String)
  | position (i : Nat)

namespace Value

/-- What stands at a place. -/
def at? : Value → List Spot → Option Value
  | v, [] => some v
  | .map entries, .key name :: rest => (Entries.get? name entries).bind fun v => v.at? rest
  | .list items, .position i :: rest => items[i]?.bind fun v => v.at? rest
  | _, _ :: _ => none

@[simp] theorem at?_nil (v : Value) : v.at? [] = some v := by
  cases v <;> rfl

@[simp] theorem at?_map_key (entries : List (String × Value)) (name : String) (rest : List Spot) :
    (Value.map entries).at? (.key name :: rest) =
      (Entries.get? name entries).bind fun v => v.at? rest := rfl

@[simp] theorem at?_list_position (items : List Value) (i : Nat) (rest : List Spot) :
    (Value.list items).at? (.position i :: rest) = items[i]?.bind fun v => v.at? rest := rfl

/-- An empty map has no place but itself. -/
theorem at?_map_nil {spots : List Spot} (h : spots ≠ []) : (Value.map []).at? spots = none := by
  cases spots with
  | nil => exact absurd rfl h
  | cons spot rest => cases spot <;> rfl

end Value

/-! ## Substitution keeps places -/

theorem replaceItems_eq_map (resolved : Entries Value) (items : List Value) :
    replaceItems resolved items = items.map (replace resolved) := by
  induction items with
  | nil => rfl
  | cons item rest ih => rw [replaceItems, ih, List.map_cons]

theorem replaceEntries_eq_mapValues (resolved : Entries Value) (entries : Entries Value) :
    replaceEntries resolved entries = entries.mapValues (replace resolved) := by
  induction entries with
  | nil => rfl
  | cons entry rest ih =>
    rw [replaceEntries, ih]
    rfl

theorem at?_replace (resolved : Entries Value) {v u : Value} {spots : List Spot}
    (h : v.at? spots = some u) :
    (replace resolved v).at? spots = some (replace resolved u) := by
  induction spots generalizing v with
  | nil => simpa using congrArg (Option.map (replace resolved)) h
  | cons spot rest ih =>
    cases spot with
    | key name =>
      cases v with
      | map entries =>
        obtain ⟨inner, hget, hin⟩ := Option.bind_eq_some_iff.mp h
        rw [replace, replaceEntries_eq_mapValues, Value.at?_map_key, Entries.get?_mapValues, hget]
        exact ih hin
      | _ => cases h
    | position i =>
      cases v with
      | list items =>
        obtain ⟨inner, hget, hin⟩ := Option.bind_eq_some_iff.mp h
        rw [replace, replaceItems_eq_map, Value.at?_list_position, List.getElem?_map, hget]
        exact ih hin
      | _ => cases h

/-! ## Places of expressions -/

namespace Template

/-- A list keeps the items that have a value. -/
theorem Expr.evalList_eq_filterMap (env : Environment) (items : List Expr) :
    Expr.evalList env items = items.filterMap (Expr.value? env) := by
  induction items with
  | nil => rfl
  | cons item rest ih =>
    rw [Expr.evalList, ih, List.filterMap_cons, Expr.value?]
    cases item.eval env <;> rfl

theorem Expr.evalList_append (env : Environment) (items others : List Expr) :
    Expr.evalList env (items ++ others) = Expr.evalList env items ++ Expr.evalList env others := by
  simp only [Expr.evalList_eq_filterMap, List.filterMap_append]

/-- An object keeps the items that have a key text, those without a value as unsupported. -/
theorem Expr.evalItems_eq_filterMap (env : Environment) (items : List (Key × Expr)) :
    Expr.evalItems env items = items.filterMap fun item =>
      item.1.text?.map fun text => (text, (item.2.value? env).getD unsupported) := by
  induction items with
  | nil => rfl
  | cons item rest ih =>
    obtain ⟨key, e⟩ := item
    rw [Expr.evalItems, ih, List.filterMap_cons, Expr.value?]
    cases key.text? with
    | none => rfl
    | some text => cases e.eval env <;> rfl

theorem Expr.evalItems_append (env : Environment) (items others : List (Key × Expr)) :
    Expr.evalItems env (items ++ others) =
      Expr.evalItems env items ++ Expr.evalItems env others := by
  simp only [Expr.evalItems_eq_filterMap, List.filterMap_append]

/-- The keys of an evaluated object are those of its items. -/
theorem Expr.mem_keys_evalItems {env : Environment} {items : List (Key × Expr)} {text : String} :
    text ∈ Entries.keys (Expr.evalItems env items) ↔ ∃ item ∈ items, item.1.text? = some text := by
  simp [Entries.keys, Expr.evalItems_eq_filterMap]

/-- `e` stands at this place of what the whole expression evaluates to. -/
inductive Expr.Holds (env : Environment) : Expr → List Spot → Expr → Prop
  | here (e : Expr) : Expr.Holds env e [] e
  | item {before after : List Expr} {inner e : Expr} {spots : List Spot}
      (h : Expr.Holds env inner spots e) :
      Expr.Holds env (.list (before ++ inner :: after))
        (.position (Expr.evalList env before).length :: spots) e
  | entry {before after : List (Key × Expr)} {key : Key} {name : String} {inner e : Expr}
      {spots : List Spot} (hkey : key.text? = some name)
      (hlast : ∀ item ∈ after, item.1.text? ≠ some name) (h : Expr.Holds env inner spots e) :
      Expr.Holds env (.object (before ++ (key, inner) :: after)) (.key name :: spots) e

/-- `e` stands at this place of the attributes of a body: no later attribute of that name has a value
and no later block of that kind has entries. -/
inductive Body.Holds (env : Environment) : Body → List Spot → Expr → Prop
  | own {before after : List (String × Expr)} {name : String} {inner e : Expr}
      {blocks : List Block} {spots : List Spot}
      (hafter : Entries.get? name (evaluated env after) = none)
      (hblocks : Entries.get? name (Block.entries env blocks) = none)
      (h : Expr.Holds env inner spots e) :
      Body.Holds env (.mk (before ++ (name, inner) :: after) blocks) (.key name :: spots) e
  | nested {attributes : List (String × Expr)} {before after : List Block} {kind : String}
      {labels : List String} {inner : Body} {e : Expr} {spots : List Spot}
      (hafter : Entries.get? kind (Block.entries env after) = none)
      (h : Body.Holds env inner spots e) :
      Body.Holds env (.mk attributes (before ++ .mk kind labels inner :: after))
        (.key kind :: spots) e

theorem Expr.eval_list (env : Environment) (items : List Expr) :
    (Expr.list items).eval env = .ok (.list (Expr.evalList env items)) := by
  rw [Expr.eval]

theorem Expr.eval_object (env : Environment) (items : List (Key × Expr)) :
    (Expr.object items).eval env = .ok (.map (Entries.ofList (Expr.evalItems env items))) := by
  rw [Expr.eval]

theorem Expr.eval_quoted (env : Environment) (elements : List Element) :
    (Expr.quoted elements).eval env = .ok (.string (Element.render env elements)) := by
  rw [Expr.eval]

/-- The last item with a key decides what stands under it. -/
theorem Expr.get?_evalItems {before after : List (Key × Expr)} {key : Key} {name : String}
    (hkey : key.text? = some name) (hlast : ∀ item ∈ after, item.1.text? ≠ some name)
    (env : Environment) (inner : Expr) :
    (Entries.ofList (Expr.evalItems env (before ++ (key, inner) :: after))).get? name =
      some ((inner.value? env).getD unsupported) := by
  have hafter : Entries.get? name (Expr.evalItems env after) = none := by
    rw [← Option.not_isSome_iff_eq_none, ← Entries.mem_keys_iff, Expr.mem_keys_evalItems]
    rintro ⟨item, hitem, htext⟩
    exact hlast item hitem htext
  have hstep : Expr.evalItems env ((key, inner) :: after) =
      (name, (inner.value? env).getD unsupported) :: Expr.evalItems env after := by
    simp [Expr.evalItems_eq_filterMap, hkey]
  rw [Entries.get?_ofList, Expr.evalItems_append, hstep]
  exact Entries.get?_reverse_of_last hafter _ _

theorem Expr.Holds.value_at {env : Environment} {whole e : Expr} {spots : List Spot} {v : Value}
    (h : Expr.Holds env whole spots e) (he : e.eval env = .ok v) :
    ∃ u, whole.eval env = .ok u ∧ u.at? spots = some v := by
  induction h with
  | here e => exact ⟨v, he, Value.at?_nil v⟩
  | item h ih =>
    obtain ⟨u, hu, hat⟩ := ih he
    refine ⟨_, Expr.eval_list .., ?_⟩
    rw [Expr.evalList_append, Expr.evalList, hu, Value.at?_list_position]
    simpa using hat
  | entry hkey hlast h ih =>
    obtain ⟨u, hu, hat⟩ := ih he
    refine ⟨_, Expr.eval_object .., ?_⟩
    rw [Value.at?_map_key, Expr.get?_evalItems hkey hlast, Expr.value?, hu]
    exact hat

/-! ## Places of bodies -/

theorem Block.entries_append (env : Environment) (blocks others : List Block) :
    Block.entries env (blocks ++ others) = Block.entries env blocks ++ Block.entries env others := by
  induction blocks with
  | nil => rfl
  | cons block rest ih =>
    obtain ⟨kind, labels, body⟩ := block
    rw [List.cons_append, Block.entries, Block.entries, ih]
    cases Body.values env body <;> rfl

theorem Block.entries_cons {env : Environment} {body : Body} (h : body.values env ≠ [])
    (kind : String) (labels : List String) (rest : List Block) :
    Block.entries env (.mk kind labels body :: rest) =
      (kind, .map (body.values env)) :: Block.entries env rest := by
  rw [Block.entries]
  cases hv : body.values env with
  | nil => exact absurd hv h
  | cons entry entries => rfl

/-- An entry of a block is a map under its kind. -/
theorem Block.of_mem_entries {env : Environment} {blocks : List Block} {entry : String × Value}
    (h : entry ∈ Block.entries env blocks) :
    entry.1 ∈ blocks.map Block.kind ∧ ∃ inner, entry.2 = .map inner := by
  induction blocks with
  | nil => cases h
  | cons block rest ih =>
    obtain ⟨kind, labels, body⟩ := block
    rw [List.map_cons, List.mem_cons]
    by_cases hempty : body.values env = []
    · rw [Block.entries, hempty] at h
      exact ⟨Or.inr (ih h).1, (ih h).2⟩
    · rw [Block.entries_cons hempty] at h
      rcases List.mem_cons.mp h with rfl | h
      · exact ⟨Or.inl rfl, _, rfl⟩
      · exact ⟨Or.inr (ih h).1, (ih h).2⟩

theorem Body.get?_values (env : Environment) (attributes : List (String × Expr))
    (blocks : List Block) (name : String) :
    ((Body.mk attributes blocks).values env).get? name =
      (Entries.get? name (Block.entries env blocks).reverse).or
        (Entries.get? name (evaluated env attributes).reverse) := by
  rw [Body.values, Entries.get?_overlay, Entries.get?_ofList]

theorem mem_evaluated_iff {env : Environment} {attributes : List (String × Expr)} {name : String}
    {v : Value} :
    (name, v) ∈ evaluated env attributes ↔ ∃ e, (name, e) ∈ attributes ∧ e.eval env = .ok v := by
  have hvalue : ∀ e : Expr, e.value? env = some v ↔ e.eval env = .ok v := by
    intro e
    rw [Expr.value?]
    cases e.eval env <;> simp [Except.toOption]
  simp [evaluated, hvalue]

theorem evaluated_append (env : Environment) (attributes others : List (String × Expr)) :
    evaluated env (attributes ++ others) = evaluated env attributes ++ evaluated env others :=
  List.filterMap_append

theorem evaluated_cons {env : Environment} {e : Expr} {v : Value} (h : e.eval env = .ok v)
    (name : String) (rest : List (String × Expr)) :
    evaluated env ((name, e) :: rest) = (name, v) :: evaluated env rest := by
  simp [evaluated, Expr.value?, h, Except.toOption]

theorem Body.Holds.ne_nil {env : Environment} {body : Body} {spots : List Spot} {e : Expr}
    (h : Body.Holds env body spots e) : spots ≠ [] := by
  cases h <;> exact List.cons_ne_nil _ _

theorem Body.Holds.value_at {env : Environment} {body : Body} {e : Expr} {spots : List Spot}
    {v : Value} (h : Body.Holds env body spots e) (he : e.eval env = .ok v) :
    (Value.map (body.values env)).at? spots = some v := by
  induction h with
  | own hafter hblocks h =>
    obtain ⟨u, hu, hat⟩ := h.value_at he
    rw [Value.at?_map_key, Body.get?_values, Entries.get?_reverse_eq_none.mpr hblocks,
      Option.none_or, evaluated_append, evaluated_cons hu, Entries.get?_reverse_of_last hafter]
    exact hat
  | @nested _ _ _ _ _ inner _ _ hafter h ih =>
    have hat := ih he
    -- a body with something at a place has entries, so its block is not left out
    have hentries : inner.values env ≠ [] := by
      intro hnil
      rw [hnil, Value.at?_map_nil h.ne_nil] at hat
      cases hat
    rw [Value.at?_map_key, Body.get?_values, Block.entries_append, Block.entries_cons hentries,
      Entries.get?_reverse_of_last hafter, Option.some_or]
    exact hat

end Template
end TemplateCost
