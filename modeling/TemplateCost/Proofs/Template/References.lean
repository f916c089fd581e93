import Mathlib.Data.List.Basic
import TemplateCost.Resource.Attributes

/-! # What evaluation reads

An expression is evaluated by looking names up, and only the names of the references that it is made
of count: those in interpolations, items, values of objects, branches and compared sides. Environments
that agree on these names give the same value or the same failure, and the same attributes of a body.
-/
namespace TemplateCost

namespace Entries
variable {α : Type}

/-- Both maps have the same under each of these names, or both have nothing. -/
def AgreeOn (names : List String) (entries others : Entries α) : Prop :=
  ∀ name ∈ names, entries.get? name = others.get? name

instance [DecidableEq α] (names : List String) (entries others : Entries α) :
    Decidable (AgreeOn names entries others) :=
  List.decidableBAll (fun name => entries.get? name = others.get? name) names

theorem AgreeOn.mono {names more : List String} {entries others : Entries α} (hsub : names ⊆ more)
    (h : AgreeOn more entries others) : AgreeOn names entries others :=
  fun name hn => h name (hsub hn)

theorem agreeOn_append {names more : List String} {entries others : Entries α} :
    AgreeOn (names ++ more) entries others ↔
      AgreeOn names entries others ∧ AgreeOn more entries others :=
  List.forall_mem_append

theorem AgreeOn.of_mem {β : Type} {parts : List β} {names : β → List String} {part : β}
    {entries others : Entries α} (h : AgreeOn (parts.flatMap names) entries others)
    (hp : part ∈ parts) : AgreeOn (names part) entries others :=
  fun name hn => h name (List.mem_flatMap.mpr ⟨part, hp, hn⟩)

end Entries

open Entries

namespace Template

/-- The dotted path of a reference. -/
def Expr.reference? : Expr → Option String
  | .variable name => some name
  | .traversal root steps => path? root steps
  | _ => none

/-- The name that a reference is looked up by. -/
def Expr.ownReads (e : Expr) : List String := e.reference?.toList.map bareName

def Element.reads : Element → List String
  | .interpolation inner => inner.ownReads
  | .literal _ => []
  | .directive => []

mutual
/-- The names that can decide what an expression evaluates to. Arguments, indices, keys, loops and
operations that are no condition are never looked into. -/
def Expr.reads : Expr → List String
  | .variable name => Expr.ownReads (.variable name)
  | .traversal root steps => Expr.ownReads (.traversal root steps)
  | .quoted elements => elements.flatMap Element.reads
  | .list items => Expr.readsOfList items
  | .object items => Expr.readsOfItems items
  | .conditional c yes no => Expr.conditionReads c ++ (Expr.reads yes ++ Expr.reads no)
  | .parens inner => Expr.reads inner
  | _ => []
def Expr.conditionReads : Expr → List String
  | .binary _ left right => Expr.reads left ++ Expr.reads right
  | .parens inner => Expr.conditionReads inner
  | _ => []
def Expr.readsOfList : List Expr → List String
  | [] => []
  | item :: rest => Expr.reads item ++ Expr.readsOfList rest
def Expr.readsOfItems : List (Key × Expr) → List String
  | [] => []
  | (_, item) :: rest => Expr.reads item ++ Expr.readsOfItems rest
end

mutual
def Body.reads : Body → List String
  | .mk attributes blocks =>
    attributes.flatMap (fun entry => entry.2.reads) ++ Block.readsOfAll blocks
def Block.readsOfAll : List Block → List String
  | [] => []
  | .mk _ _ body :: rest => Body.reads body ++ Block.readsOfAll rest
end

/-! ## Expressions -/

section
variable {env other : Environment}

theorem resolve_congr {path : String} (h : env.get? (bareName path) = other.get? (bareName path)) :
    env.resolve path = other.resolve path := by
  rw [Environment.resolve, Environment.resolve, h]

theorem Expr.resolve_congr {e : Expr} {path : String} (hpath : e.reference? = some path)
    (h : AgreeOn e.ownReads env other) : env.resolve path = other.resolve path := by
  refine Template.resolve_congr (h (bareName path) ?_)
  simp [ownReads, hpath]

theorem Element.text_interpolation (env : Environment) (inner : Expr) :
    Element.text env (.interpolation inner) =
      (inner.reference?.map fun path => (env.resolve path).display).getD hiddenFragment := by
  match inner with
  | .traversal root steps =>
    rw [Element.text, Expr.reference?]
    cases path? root steps <;> rfl
  | .variable _ | .null | .bool _ | .number _ | .string _ | .quoted _ | .malformed | .call _ _
  | .list _ | .object _ | .conditional _ _ _ | .parens _ | .unary _ _ | .binary _ _ _
  | .forEach _ _ _ => rfl

theorem Element.text_congr {element : Element} (h : AgreeOn element.reads env other) :
    element.text env = element.text other := by
  cases element with
  | literal text => rfl
  | directive => rfl
  | interpolation inner =>
    rw [Element.text_interpolation, Element.text_interpolation]
    cases hpath : inner.reference? with
    | none => rfl
    | some path => rw [Option.map_some, Option.map_some, Expr.resolve_congr hpath h]

theorem Element.render_congr {elements : List Element}
    (h : AgreeOn (elements.flatMap Element.reads) env other) :
    Element.render env elements = Element.render other elements := by
  rw [Element.render, Element.render]
  congr 1
  refine List.map_congr_left ?_
  intro element he
  exact Element.text_congr (h.of_mem he)

mutual
theorem Expr.eval_congr : (e : Expr) → AgreeOn e.reads env other → e.eval env = e.eval other
  | .variable name, h => by
    rw [Expr.eval, Expr.eval, Expr.resolve_congr rfl h]
  | .traversal root steps, h => by
    rw [Expr.eval, Expr.eval]
    cases hpath : path? root steps with
    | none => rfl
    | some path =>
      have hreference : (Expr.traversal root steps).reference? = some path := hpath
      exact congrArg Except.ok (Expr.resolve_congr hreference h)
  | .quoted elements, h => by
    rw [Expr.eval, Expr.eval, Element.render_congr h]
  | .list items, h => by
    rw [Expr.eval, Expr.eval, Expr.evalList_congr items h]
  | .object items, h => by
    rw [Expr.eval, Expr.eval, Expr.evalItems_congr items h]
  | .conditional c yes no, h => by
    obtain ⟨hc, hbranches⟩ := agreeOn_append.mp h
    obtain ⟨hyes, hno⟩ := agreeOn_append.mp hbranches
    rw [Expr.eval, Expr.eval, Expr.condition_congr c hc, Expr.eval_congr yes hyes,
      Expr.eval_congr no hno]
  | .parens inner, h => by
    rw [Expr.eval, Expr.eval, Expr.eval_congr inner h]
  | .null, _ => rfl
  | .bool _, _ => rfl
  | .number _, _ => rfl
  | .string _, _ => rfl
  | .malformed, _ => rfl
  | .call _ _, _ => rfl
  | .unary _ _, _ => rfl
  | .binary _ _ _, _ => rfl
  | .forEach _ _ _, _ => rfl
theorem Expr.condition_congr : (c : Expr) → AgreeOn c.conditionReads env other →
    c.condition env = c.condition other
  | .binary op left right, h => by
    obtain ⟨hleft, hright⟩ := agreeOn_append.mp h
    rw [Expr.condition, Expr.condition, Expr.eval_congr left hleft, Expr.eval_congr right hright]
  | .parens inner, h => by
    rw [Expr.condition, Expr.condition, Expr.condition_congr inner h]
  | .null, _ => rfl
  | .bool _, _ => rfl
  | .number _, _ => rfl
  | .string _, _ => rfl
  | .quoted _, _ => rfl
  | .malformed, _ => rfl
  | .variable _, _ => rfl
  | .traversal _ _, _ => rfl
  | .call _ _, _ => rfl
  | .list _, _ => rfl
  | .object _, _ => rfl
  | .conditional _ _ _, _ => rfl
  | .unary _ _, _ => rfl
  | .forEach _ _ _, _ => rfl
theorem Expr.evalList_congr : (items : List Expr) → AgreeOn (Expr.readsOfList items) env other →
    Expr.evalList env items = Expr.evalList other items
  | [], _ => rfl
  | item :: rest, h => by
    obtain ⟨hitem, hrest⟩ := agreeOn_append.mp h
    rw [Expr.evalList, Expr.evalList, Expr.eval_congr item hitem, Expr.evalList_congr rest hrest]
theorem Expr.evalItems_congr : (items : List (Key × Expr)) →
    AgreeOn (Expr.readsOfItems items) env other →
    Expr.evalItems env items = Expr.evalItems other items
  | [], _ => rfl
  | (key, item) :: rest, h => by
    obtain ⟨hitem, hrest⟩ := agreeOn_append.mp h
    rw [Expr.evalItems, Expr.evalItems, Expr.eval_congr item hitem, Expr.evalItems_congr rest hrest]
end

/-! ## Bodies -/

theorem evaluated_congr {attributes : List (String × Expr)}
    (h : AgreeOn (attributes.flatMap fun entry => entry.2.reads) env other) :
    evaluated env attributes = evaluated other attributes := by
  refine List.filterMap_congr ?_
  intro entry he
  rw [Expr.value?, Expr.value?,
    Expr.eval_congr entry.2 (h.of_mem he)]

mutual
theorem Body.values_congr : (body : Body) → AgreeOn body.reads env other →
    body.values env = body.values other
  | .mk attributes blocks, h => by
    obtain ⟨hattributes, hblocks⟩ := agreeOn_append.mp h
    rw [Body.values, Body.values, evaluated_congr hattributes, Block.entries_congr blocks hblocks]
theorem Block.entries_congr : (blocks : List Block) → AgreeOn (Block.readsOfAll blocks) env other →
    Block.entries env blocks = Block.entries other blocks
  | [], _ => rfl
  | .mk kind _ body :: rest, h => by
    obtain ⟨hbody, hrest⟩ := agreeOn_append.mp h
    rw [Block.entries, Block.entries, Body.values_congr body hbody, Block.entries_congr rest hrest]
end

theorem Body.reads_attribute? {body : Body} {name : String} {e : Expr}
    (h : body.attribute? name = some e) : e.reads ⊆ body.reads := by
  obtain ⟨attributes, blocks⟩ := body
  obtain ⟨entry, hfound, rfl⟩ := Option.map_eq_some_iff.mp h
  have hmem : entry ∈ attributes := List.mem_of_find?_eq_some hfound
  intro read hread
  exact List.mem_append_left _ (List.mem_flatMap.mpr ⟨entry, hmem, hread⟩)

/-- An attribute is evaluated alike, if the body has it. -/
theorem Body.attribute?_congr {body : Body} (h : AgreeOn body.reads env other) (name : String) :
    (body.attribute? name).map (Expr.eval env) = (body.attribute? name).map (Expr.eval other) := by
  cases hfound : body.attribute? name with
  | none => rfl
  | some e =>
    rw [Option.map_some, Option.map_some, Expr.eval_congr e (h.mono (Body.reads_attribute? hfound))]

end

end Template
end TemplateCost
