import Mathlib.Data.List.Lex
import Mathlib.Data.Prod.Lex
import Mathlib.Data.String.Basic
import TemplateCost.Path
import TemplateCost.Proofs.Text.Search

/-! # The order of paths

Paths are ordered like the lists of keys of their components, so their order is linear up to paths that
are the same. A name joined to a directory is the file name of the path.
-/
namespace TemplateCost.Path

/-- Kinds of components come in the order of their ranks, names in that of their texts. -/
def Component.key (c : Component) : ℕ ×ₗ String := toLex (c.rank, c.text)

theorem Component.key_injective : Function.Injective key := by
  intro a b h
  obtain ⟨hrank, htext⟩ := Prod.mk.inj (toLex.injective h)
  cases a <;> cases b <;> simp_all [rank, text]

theorem Component.before_iff {a b : Component} : a.before b = true ↔ a.key < b.key := by
  simp [before, key, Prod.Lex.toLex_lt_toLex]

theorem componentsBefore_iff (as bs : List Component) :
    componentsBefore as bs = true ↔ as.map Component.key < bs.map Component.key := by
  induction as generalizing bs with
  | nil => cases bs <;> simp [componentsBefore]
  | cons a as ih =>
    cases bs with
    | nil => simp [componentsBefore]
    | cons b bs =>
      simp [componentsBefore, Component.before_iff, ih, Component.key_injective.eq_iff,
        List.cons_lt_cons_iff]

def key (path : Path) : List (ℕ ×ₗ String) := path.components.map Component.key

theorem le_iff {a b : Path} : a.le b = true ↔ a.key ≤ b.key := by
  rw [le, Bool.not_eq_true', ← Bool.not_eq_true, componentsBefore_iff, ← key, ← key, not_lt]

theorem same_iff {a b : Path} : a.same b = true ↔ a.key = b.key := by
  rw [same, decide_eq_true_iff, key, key, Component.key_injective.list_map.eq_iff]

/-! ## Names -/

/-- What can be the name of a file. -/
structure IsName (name : String) : Prop where
  ne_empty : name ≠ ""
  ne_current : name ≠ "."
  ne_parent : name ≠ ".."
  no_separator : '/' ∉ name.toList

theorem IsName.isAbsolute_eq_false {name : String} (h : IsName name) :
    (Path.mk name).isAbsolute = false := by
  rw [isAbsolute, decide_eq_false_iff_not]
  exact fun hroot => h.no_separator (List.mem_of_head? hroot)

theorem IsName.component? {name : String} (h : IsName name) (first : Bool) :
    component? first name = some (.name name) := by
  rw [Path.component?, if_neg h.ne_empty, if_neg h.ne_current, if_neg h.ne_parent]

theorem fileName?_of_components {path : Path} {name : String} (before : List Component)
    (h : path.components = before ++ [.name name]) : path.fileName? = some name := by
  rw [fileName?, h, List.getLast?_concat]

theorem fileName?_of_isName {name : String} (h : IsName name) :
    (Path.mk name).fileName? = some name := by
  refine fileName?_of_components [] ?_
  rw [components, Text.pieces_of_not_mem h.no_separator, h.isAbsolute_eq_false]
  simp [h.component?]

theorem fileName?_of_append {path : Path} {name : String} (h : IsName name) (before : List Char)
    (hpath : path.text.toList = before ++ '/' :: name.toList) : path.fileName? = some name := by
  have hpieces : Text.pieces '/' path.text.toList = Text.pieces '/' before ++ [name.toList] := by
    rw [hpath, Text.pieces_append, Text.pieces_of_not_mem h.no_separator]
  cases hbefore : Text.pieces '/' before with
  | nil => exact absurd (Text.pieces_eq_splitOn '/' before ▸ hbefore) (List.splitOn_ne_nil _ _)
  | cons first rest =>
    let root := if path.isAbsolute then [.root] else (component? true (String.ofList first)).toList
    refine fileName?_of_components
      (root ++ (rest.map String.ofList).filterMap (component? false)) ?_
    rw [components, hpieces, hbefore]
    simp [root, h.component?]

/-- The extension is read off the file name. -/
theorem extension?_congr {path other : Path} (h : path.fileName? = other.fileName?) :
    path.extension? = other.extension? := by
  rw [extension?, extension?, h]

/-- A name joined to a directory is the name of the joined path. -/
theorem fileName?_join {name : String} (h : IsName name) (base : Path) :
    (base.join ⟨name⟩).fileName? = some name := by
  rw [join, h.isAbsolute_eq_false, if_neg Bool.false_ne_true]
  split
  · rename_i hbase
    rcases Bool.or_eq_true_iff.mp hbase with hslash | hempty
    · obtain ⟨before, hbefore⟩ := List.getLast?_eq_some_iff.mp (of_decide_eq_true hslash)
      refine fileName?_of_append h before ?_
      simp [hbefore]
    · obtain rfl : base = ⟨""⟩ := congrArg Path.mk (of_decide_eq_true hempty)
      simpa using fileName?_of_isName h
  · refine fileName?_of_append h base.text.toList ?_
    simp

end TemplateCost.Path
