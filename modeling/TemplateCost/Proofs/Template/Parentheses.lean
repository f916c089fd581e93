import Mathlib.Logic.Relation
import TemplateCost.Proofs.Substitution.Nesting

/-! # Redundant parentheses

Evaluation, conditions and the texts of keys all see through parentheses. So a pair of them can be taken
away around an expression and, at any depth, around items, keys, values, conditions, branches and the
sides of operations, and nothing changes. In whatever order this is done, the same expression is left in
the end. Roots and indices of traversals and parts of templates are not looked into: there the form of an
expression counts.
-/
namespace TemplateCost.Template
open Relation

/-- A place directly inside an expression where parentheses are redundant. -/
inductive Place
  | inner
  | item (before after : List Expr)
  | key (before : List (Key × Expr)) (e : Expr) (after : List (Key × Expr))
  | value (before : List (Key × Expr)) (k : Key) (after : List (Key × Expr))
  | condition (a b : Expr)
  | yes (c b : Expr)
  | no (c a : Expr)
  | left (op : BinaryOp) (e : Expr)
  | right (op : BinaryOp) (e : Expr)

/-- The expression that has `x` at this place. -/
def Place.fill : Place → Expr → Expr
  | inner, x => .parens x
  | item before after, x => .list (before ++ x :: after)
  | key before e after, x => .object (before ++ (.expression x, e) :: after)
  | value before k after, x => .object (before ++ (k, x) :: after)
  | condition a b, x => .conditional x a b
  | yes c b, x => .conditional c x b
  | no c a, x => .conditional c a x
  | left op e, x => .binary op x e
  | right op e, x => .binary op e x

/-- One pair of redundant parentheses is taken away. -/
inductive Expr.Unwraps : Expr → Expr → Prop
  | whole (inner : Expr) : Unwraps (.parens inner) inner
  | inside (place : Place) {e other : Expr} (h : Unwraps e other) :
      Unwraps (place.fill e) (place.fill other)

mutual
/-- The expression without redundant parentheses. -/
def Expr.bare : Expr → Expr
  | .parens inner => Expr.bare inner
  | .list items => .list (Expr.bareList items)
  | .object items => .object (Expr.bareItems items)
  | .conditional c yes no => .conditional (Expr.bare c) (Expr.bare yes) (Expr.bare no)
  | .binary op left right => .binary op (Expr.bare left) (Expr.bare right)
  | .null => .null
  | .bool b => .bool b
  | .number n => .number n
  | .string text => .string text
  | .quoted elements => .quoted elements
  | .malformed => .malformed
  | .variable name => .variable name
  | .traversal root steps => .traversal root steps
  | .call name arguments => .call name arguments
  | .unary op operand => .unary op operand
  | .forEach names collection parts => .forEach names collection parts
def Key.bare : Key → Key
  | .identifier name => .identifier name
  | .expression inner => .expression (Expr.bare inner)
def Expr.bareList : List Expr → List Expr
  | [] => []
  | item :: rest => Expr.bare item :: Expr.bareList rest
def Expr.bareItems : List (Key × Expr) → List (Key × Expr)
  | [] => []
  | (key, e) :: rest => (Key.bare key, Expr.bare e) :: Expr.bareItems rest
end

mutual
/-- How many pairs of parentheses are redundant. -/
def Expr.pairs : Expr → ℕ
  | .parens inner => Expr.pairs inner + 1
  | .list items => Expr.pairsOfList items
  | .object items => Expr.pairsOfItems items
  | .conditional c yes no => Expr.pairs c + Expr.pairs yes + Expr.pairs no
  | .binary _ left right => Expr.pairs left + Expr.pairs right
  | _ => 0
def Key.pairs : Key → ℕ
  | .identifier _ => 0
  | .expression inner => Expr.pairs inner
def Expr.pairsOfList : List Expr → ℕ
  | [] => 0
  | item :: rest => Expr.pairs item + Expr.pairsOfList rest
def Expr.pairsOfItems : List (Key × Expr) → ℕ
  | [] => 0
  | (key, e) :: rest => Key.pairs key + Expr.pairs e + Expr.pairsOfItems rest
end

/-- Wherever they are read, the two expressions are read alike. -/
structure Expr.Alike (env : Environment) (e other : Expr) : Prop where
  eval : e.eval env = other.eval env
  condition : e.condition env = other.condition env
  keyText? : e.keyText? = other.keyText?

/-! ## One pair -/

section
variable {env : Environment} {e other : Expr}

theorem Expr.Alike.fill (h : e.Alike env other) (place : Place) :
    (place.fill e).Alike env (place.fill other) := by
  cases place with
  | inner =>
    refine ⟨?_, ?_, ?_⟩
    · simp only [Place.fill, Expr.eval, h.eval]
    · simp only [Place.fill, Expr.condition, h.condition]
    · simp only [Place.fill, Expr.keyText?, h.keyText?]
  | item before after =>
    refine ⟨?_, rfl, rfl⟩
    simp only [Place.fill, Expr.eval_list, Expr.evalList_append, Expr.evalList, h.eval]
  | key before e after =>
    refine ⟨?_, rfl, rfl⟩
    simp only [Place.fill, Expr.eval_object, Expr.evalItems_append, Expr.evalItems, Key.text?,
      h.keyText?]
  | value before k after =>
    refine ⟨?_, rfl, rfl⟩
    simp only [Place.fill, Expr.eval_object, Expr.evalItems_append, Expr.evalItems, h.eval]
  | condition a b =>
    refine ⟨?_, rfl, rfl⟩
    simp only [Place.fill, Expr.eval, h.condition]
  | yes c b | no c a =>
    refine ⟨?_, rfl, rfl⟩
    simp only [Place.fill, Expr.eval, h.eval]
  | left op e | right op e =>
    refine ⟨rfl, ?_, rfl⟩
    simp only [Place.fill, Expr.condition, h.eval]

theorem Expr.Unwraps.alike (h : e.Unwraps other) : e.Alike env other := by
  induction h with
  | whole inner => exact ⟨by rw [Expr.eval], by rw [Expr.condition], by rw [Expr.keyText?]⟩
  | inside place _ ih => exact ih.fill place

theorem Expr.bareList_eq_map (items : List Expr) : bareList items = items.map bare := by
  induction items with
  | nil => rfl
  | cons item rest ih => rw [bareList, ih, List.map_cons]

theorem Expr.bareItems_eq_map (items : List (Key × Expr)) :
    bareItems items = items.map fun item => (item.1.bare, item.2.bare) := by
  induction items with
  | nil => rfl
  | cons item rest ih => rw [bareItems, ih, List.map_cons]

theorem Expr.pairsOfList_eq_sum (items : List Expr) : pairsOfList items = (items.map pairs).sum := by
  induction items with
  | nil => rfl
  | cons item rest ih => rw [pairsOfList, ih, List.map_cons, List.sum_cons]

theorem Expr.pairsOfItems_eq_sum (items : List (Key × Expr)) :
    pairsOfItems items = (items.map fun item => item.1.pairs + item.2.pairs).sum := by
  induction items with
  | nil => rfl
  | cons item rest ih => rw [pairsOfItems, ih, List.map_cons, List.sum_cons]

theorem Place.bare_fill (place : Place) (h : e.bare = other.bare) :
    (place.fill e).bare = (place.fill other).bare := by
  cases place <;>
    simp [fill, Expr.bare, Key.bare, Expr.bareList_eq_map, Expr.bareItems_eq_map, h]

/-- What is taken away is not part of what is left in the end. -/
theorem Expr.Unwraps.bare_eq (h : e.Unwraps other) : e.bare = other.bare := by
  induction h with
  | whole inner => rw [bare]
  | inside place _ ih => exact place.bare_fill ih

theorem Place.pairs_fill (place : Place) (h : e.pairs = other.pairs + 1) :
    (place.fill e).pairs = (place.fill other).pairs + 1 := by
  cases place <;>
    simp only [fill, Expr.pairs, Key.pairs, Expr.pairsOfList_eq_sum, Expr.pairsOfItems_eq_sum,
      List.map_append, List.map_cons, List.sum_append, List.sum_cons] <;>
    omega

theorem Expr.Unwraps.pairs_eq (h : e.Unwraps other) : e.pairs = other.pairs + 1 := by
  induction h with
  | whole inner => rw [pairs]
  | inside place _ ih => exact place.pairs_fill ih

end

/-! ## All pairs -/

mutual
theorem Expr.pairs_bare : (e : Expr) → e.bare.pairs = 0
  | .parens inner => by rw [Expr.bare, Expr.pairs_bare inner]
  | .list items => by rw [Expr.bare, Expr.pairs, Expr.pairsOfList_bareList items]
  | .object items => by rw [Expr.bare, Expr.pairs, Expr.pairsOfItems_bareItems items]
  | .conditional c yes no => by
    rw [Expr.bare, Expr.pairs, Expr.pairs_bare c, Expr.pairs_bare yes, Expr.pairs_bare no]
  | .binary op left right => by
    rw [Expr.bare, Expr.pairs, Expr.pairs_bare left, Expr.pairs_bare right]
  | .null | .bool _ | .number _ | .string _ | .quoted _ | .malformed | .variable _
  | .traversal _ _ | .call _ _ | .unary _ _ | .forEach _ _ _ => rfl
theorem Key.pairs_bare : (key : Key) → key.bare.pairs = 0
  | .identifier _ => rfl
  | .expression inner => by rw [Key.bare, Key.pairs, Expr.pairs_bare inner]
theorem Expr.pairsOfList_bareList : (items : List Expr) →
    Expr.pairsOfList (Expr.bareList items) = 0
  | [] => rfl
  | item :: rest => by
    rw [Expr.bareList, Expr.pairsOfList, Expr.pairs_bare item, Expr.pairsOfList_bareList rest]
theorem Expr.pairsOfItems_bareItems : (items : List (Key × Expr)) →
    Expr.pairsOfItems (Expr.bareItems items) = 0
  | [] => rfl
  | (key, e) :: rest => by
    rw [Expr.bareItems, Expr.pairsOfItems, Key.pairs_bare key, Expr.pairs_bare e,
      Expr.pairsOfItems_bareItems rest]
end

/-- Pairs can be taken away at a place as they can be outside. -/
theorem Place.unwraps_fill (place : Place) {e other : Expr}
    (h : ReflTransGen Expr.Unwraps e other) :
    ReflTransGen Expr.Unwraps (place.fill e) (place.fill other) :=
  ReflTransGen.lift place.fill (fun _ _ hstep => .inside place hstep) _ _ h

mutual
theorem Expr.unwraps_bare : (e : Expr) → ReflTransGen Unwraps e e.bare
  | .parens inner => .head (.whole inner) (unwraps_bare inner)
  | .list items => unwraps_bareList [] items
  | .object items => unwraps_bareItems [] items
  | .conditional c yes no =>
    (((Place.condition yes no).unwraps_fill (unwraps_bare c)).trans
      ((Place.yes c.bare no).unwraps_fill (unwraps_bare yes))).trans
      ((Place.no c.bare yes.bare).unwraps_fill (unwraps_bare no))
  | .binary op left right =>
    ((Place.left op right).unwraps_fill (unwraps_bare left)).trans
      ((Place.right op left.bare).unwraps_fill (unwraps_bare right))
  | .null | .bool _ | .number _ | .string _ | .quoted _ | .malformed | .variable _
  | .traversal _ _ | .call _ _ | .unary _ _ | .forEach _ _ _ => .refl
/-- The items before these are bare already. -/
theorem Expr.unwraps_bareList (before : List Expr) : (items : List Expr) →
    ReflTransGen Unwraps (.list (before ++ items)) (.list (before ++ bareList items))
  | [] => .refl
  | item :: rest => by
    have hitem := (Place.item before rest).unwraps_fill (unwraps_bare item)
    have hrest := unwraps_bareList (before ++ [item.bare]) rest
    simp only [List.append_assoc, List.singleton_append] at hrest
    exact hitem.trans hrest
theorem Expr.unwraps_bareItems (before : List (Key × Expr)) : (items : List (Key × Expr)) →
    ReflTransGen Unwraps (.object (before ++ items)) (.object (before ++ bareItems items))
  | [] => .refl
  | (.identifier name, e) :: rest => by
    have hvalue := (Place.value before (.identifier name) rest).unwraps_fill (unwraps_bare e)
    have hrest := unwraps_bareItems (before ++ [(.identifier name, e.bare)]) rest
    simp only [List.append_assoc, List.singleton_append] at hrest
    exact hvalue.trans hrest
  | (.expression key, e) :: rest => by
    have hkey := (Place.key before e rest).unwraps_fill (unwraps_bare key)
    have hvalue := (Place.value before (.expression key.bare) rest).unwraps_fill (unwraps_bare e)
    have hrest := unwraps_bareItems (before ++ [(.expression key.bare, e.bare)]) rest
    simp only [List.append_assoc, List.singleton_append] at hrest
    exact (hkey.trans hvalue).trans hrest
end

namespace Expr
variable {e other : Expr}

/-- What each step keeps, a run keeps. -/
theorem eq_of_unwraps {α : Type} {f : Expr → α}
    (hf : ∀ {e other : Expr}, e.Unwraps other → f e = f other) (h : ReflTransGen Unwraps e other) :
    f other = f e := by
  induction h with
  | refl => rfl
  | tail _ hstep ih => exact (hf hstep).symm.trans ih

theorem eval_of_unwraps (env : Environment) (h : ReflTransGen Unwraps e other) :
    other.eval env = e.eval env :=
  eq_of_unwraps (fun hstep => hstep.alike.eval) h

theorem bare_of_unwraps (h : ReflTransGen Unwraps e other) : other.bare = e.bare :=
  eq_of_unwraps (fun hstep => hstep.bare_eq) h

/-- Nothing is left to be taken away iff the expression is bare. -/
theorem forall_not_unwraps_iff : (∀ next, ¬ e.Unwraps next) ↔ e = e.bare := by
  constructor
  · intro h
    rcases (unwraps_bare e).cases_head with heq | ⟨next, hstep, _⟩
    · exact heq
    · exact absurd hstep (h next)
  · intro heq next hstep
    -- a step takes one pair away, and a bare expression has none
    have hnone : e.pairs = 0 := heq ▸ pairs_bare e
    have hone := hstep.pairs_eq
    omega

end Expr

/-- The bare expression has the same value or the same failure. It is reached by taking away pairs of
redundant parentheses one by one, each of which keeps the outcome, and it is what is left when there are
none. -/
theorem parentheses_redundant (env : Environment) (e : Expr) :
    e.bare.eval env = e.eval env ∧ ReflTransGen Expr.Unwraps e e.bare ∧
      ∀ other, ReflTransGen Expr.Unwraps e other →
        other.eval env = e.eval env ∧ ((∀ next, ¬ other.Unwraps next) ↔ other = e.bare) := by
  have hbare := Expr.unwraps_bare e
  refine ⟨Expr.eval_of_unwraps env hbare, hbare, ?_⟩
  intro other h
  refine ⟨Expr.eval_of_unwraps env h, ?_⟩
  rw [Expr.forall_not_unwraps_iff, Expr.bare_of_unwraps h]

/-- A choice in a list, with a key and parentheses at each place. -/
def wrappedZones : Expr :=
  .parens (.list [.parens (.conditional
    (.parens (.binary .equal (.parens (.variable "zone")) (.parens (.string "a"))))
    (.parens (.object [(.expression (.parens (.string "zone")), .parens (.parens .null))]))
    (.parens .null))])

theorem wrapped_zones_unwrapped :
    let condition := Expr.binary .equal (.variable "zone") (.string "a")
    let bare := Expr.list [.conditional condition
      (.object [(.expression (.string "zone"), .null)]) .null]
    (∀ env, bare.eval env = wrappedZones.eval env) ∧ ∀ next, ¬ bare.Unwraps next := by
  intro condition bare
  obtain ⟨_, hreached, hall⟩ := parentheses_redundant [] wrappedZones
  refine ⟨fun env => (parentheses_redundant env wrappedZones).1, ?_⟩
  exact (hall bare hreached).2.mpr rfl

end TemplateCost.Template
