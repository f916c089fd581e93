import TemplateCost.Text.Search

/-! # Paths

Paths are compared by their components, so repeated separators and inner dots do not count. A file
name has an extension when something stands before its last dot.
-/
namespace TemplateCost

structure Path where
  text : String
deriving DecidableEq, Inhabited

namespace Path

inductive Component
  | root
  | current
  | parent
  | name (text : String)
deriving DecidableEq, Inhabited

def Component.rank : Component → Nat
  | root => 0
  | current => 1
  | parent => 2
  | name _ => 3

def Component.text : Component → String
  | root => "/"
  | current => "."
  | parent => ".."
  | name text => text

def Component.before (a b : Component) : Bool :=
  a.rank < b.rank || (a.rank = b.rank && a.text < b.text)

def isAbsolute (path : Path) : Bool := path.text.toList.head? = some '/'

/-- A dot counts only at the very start. -/
def component? (first : Bool) (piece : String) : Option Component :=
  if piece = "" then none
  else if piece = "." then (if first then some .current else none)
  else if piece = ".." then some .parent
  else some (.name piece)

def components (path : Path) : List Component :=
  match (Text.pieces '/' path.text.toList).map String.ofList with
  | [] => []
  | first :: rest =>
    (if path.isAbsolute then [.root] else (component? true first).toList)
      ++ rest.filterMap (component? false)

def componentsBefore : List Component → List Component → Bool
  | [], [] => false
  | [], _ :: _ => true
  | _ :: _, [] => false
  | a :: as, b :: bs => a.before b || (a = b && componentsBefore as bs)

/-- The order of paths; paths with the same components are equal in it. -/
def le (a b : Path) : Bool := !componentsBefore b.components a.components

def same (a b : Path) : Bool := a.components = b.components

def fileName? (path : Path) : Option String :=
  match path.components.getLast? with
  | some (.name text) => some text
  | _ => none

/-- What follows the last dot of a file name that has something before that dot. -/
def extension? (path : Path) : Option String := do
  let name ← path.fileName?
  let parts := Text.pieces '.' name.toList
  if 2 ≤ parts.length ∧ parts.dropLast ≠ [[]] then parts.getLast?.map String.ofList else none

/-- An absolute path replaces what it is joined to. -/
def join (base path : Path) : Path :=
  if path.isAbsolute then path
  else if base.text.toList.getLast? = some '/' || base.text = "" then ⟨base.text ++ path.text⟩
  else ⟨base.text ++ "/" ++ path.text⟩

/-- The components without the last one, if there is one to drop. -/
def parent? (path : Path) : Option (List Component) :=
  match path.components.getLast? with
  | none | some .root => none
  | some _ => some path.components.dropLast

end Path
end TemplateCost
