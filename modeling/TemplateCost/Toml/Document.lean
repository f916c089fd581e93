import TemplateCost.Toml.Scalar

/-! # TOML documents

A document is a sequence of assignments and headers, gathered into one tree. A table is defined once:
by a header, by being named on the way to a deeper header, or by dotted keys, and only a table of the
same kind may be extended later. Each header of an array of tables adds one table at the end, and
paths go through the last one.
-/
namespace TemplateCost.Toml
open Text Text.Reader

inductive TableKind
  | defined
  | onPath
  | dotted
deriving DecidableEq

/-- A part of a document while it is gathered. -/
inductive Node where
  | value (v : Toml)
  | table (kind : TableKind) (entries : List (String × Node))
  | tables (list : List (List (String × Node)))

namespace Node

mutual
def toToml : Node → Toml
  | value v => v
  | table _ entries => .table (toTomlEntries entries)
  | tables list => .array (toTomlTables list)
def toTomlEntries : List (String × Node) → List (String × Toml)
  | [] => []
  | (key, node) :: rest => (key, toToml node) :: toTomlEntries rest
def toTomlTables : List (List (String × Node)) → List Toml
  | [] => []
  | entries :: rest => .table (toTomlEntries entries) :: toTomlTables rest
end

/-- The last of several tables after a change. -/
def changeLast (change : Entries Node → Option (Entries Node)) (list : List (Entries Node)) :
    Option (List (Entries Node)) := do
  let last ← list.getLast?
  pure (list.dropLast ++ [← change last])

/-- Assigns a dotted key. The table that takes the last part of the key must have been made by dotted
keys, too. -/
def assign (v : Node) : List String → Entries Node → Option (Entries Node)
  | [], _ => none
  | [key], entries => if (entries.get? key).isSome then none else some (entries.insert key v)
  | key :: rest, entries =>
    let node : Option Node := match entries.get? key with
      | none => (assign v rest []).map (table .dotted)
      | some (table .dotted inner) => (assign v rest inner).map (table .dotted)
      | some (table .onPath inner) =>
        if rest.length = 1 then none else (assign v rest inner).map (table .onPath)
      | some (tables list) =>
        if rest.length = 1 then none else (changeLast (assign v rest) list).map tables
      | some (table .defined _) | some (value _) => none
    node.map fun n => entries.insert key n

/-- Follows a header path; `place` puts the table in the place that it ends at. -/
def follow (place : Option Node → Option Node) : List String → Entries Node → Option (Entries Node)
  | [], _ => none
  | [key], entries => (place (entries.get? key)).map fun n => entries.insert key n
  | key :: rest, entries =>
    let node : Option Node := match entries.get? key with
      | none => (follow place rest []).map (table .onPath)
      | some (table kind inner) => (follow place rest inner).map (table kind)
      | some (tables list) => (changeLast (follow place rest) list).map tables
      | some (value _) => none
    node.map fun n => entries.insert key n

/-- A header defines a new table, or one that so far only stood on a path. -/
def placeTable (fill : Entries Node → Option (Entries Node)) : Option Node → Option Node
  | none => (fill []).map (table .defined)
  | some (table .onPath inner) => (fill inner).map (table .defined)
  | some _ => none

def placeItem (fill : Entries Node → Option (Entries Node)) : Option Node → Option Node
  | none => (fill []).map fun entries => tables [entries]
  | some (tables list) => (fill []).map fun entries => tables (list ++ [entries])
  | some _ => none

end Node

namespace Parser

def isBareKey (c : Char) : Bool := c.isAlphanum || c = '_' || c = '-'

def simpleKey : Reader String := do
  match ← peek? with
  | some '\x22' => basicString
  | some '\x27' => literalString
  | _ => String.ofList <$> span1 isBareKey

def dottedKey : Reader (List String) := do
  blanks
  let first ← simpleKey
  blanks
  let more ← many (do char '.'; blanks; let key ← simpleKey; blanks; pure key)
  pure (first :: more)

/-- Blanks, comments and line ends between the items of an array or of an inline table. -/
def itemSpace : Reader Unit := do
  let _ ← many ((do let _ ← span1 isBlankChar) <|> newline <|> (do comment; newline))

/-- Items with commas between them, where the last one may have a comma, too. -/
def separated (item : Reader α) : Reader (List α) := do
  itemSpace
  (do
    let first ← item
    let more ← many (do itemSpace; char ','; itemSpace; item)
    itemSpace
    let _ ← optional (char ',')
    itemSpace
    pure (first :: more)) <|> pure []

def keyValue (value : Reader Toml) : Reader (List String × Toml) := do
  let key ← dottedKey
  char '='; blanks
  let v ← value
  blanks
  pure (key, v)

def assignAll (assignments : List (List String × Toml)) (entries : Entries Node) :
    Option (Entries Node) :=
  assignments.foldlM (fun entries a => Node.assign (.value a.2) a.1 entries) entries

def inlineTable (value : Reader Toml) : Reader Toml := do
  char '{'
  let assignments ← separated (keyValue value)
  char '}'
  let entries ← (assignAll assignments [] : Option (Entries Node))
  pure (.table (Node.toTomlEntries entries))

def array (value : Reader Toml) : Reader Toml := do
  char '['
  let items ← separated value
  char ']'
  pure (.array items)

/-- A value with at most `levels` arrays and inline tables around any of its parts. -/
def value : Nat → Reader Toml
  | 0 => scalar
  | levels + 1 => do
    match ← peek? with
    | some '[' => array (value levels)
    | some '{' => inlineTable (value levels)
    | _ => scalar

def deepest : Nat := 80

inductive Header where
  | table (path : List String)
  | item (path : List String)

inductive Line where
  | header (h : Header)
  | assignment (key : List String) (value : Toml)
  | empty

def header : Reader Header :=
  (do word "[["; let path ← dottedKey; word "]]"; pure (.item path))
  <|> (do char '['; let path ← dottedKey; char ']'; pure (.table path))

def line : Reader Line := do
  blanks
  match ← peek? with
  | some '[' => do let h ← header; blanks; pure (.header h)
  | some c =>
    if c = '#' || c = '\n' || c = '\r' then pure .empty
    else do let (key, v) ← keyValue (value deepest); pure (.assignment key v)
  | none => pure .empty

def lines : Reader (List Line) := do
  let all ← many (do
    let l ← line
    let _ ← optional comment
    newline
    pure l)
  let last ← line
  let _ ← optional comment
  pure (all ++ [last])

abbrev Assignment := List String × Toml

/-- Assignments before the first header, then each header with the assignments under it. -/
def sections : List Line → List Assignment × List (Header × List Assignment)
  | [] => ([], [])
  | .empty :: rest => sections rest
  | .assignment key v :: rest =>
    let (before, headed) := sections rest
    ((key, v) :: before, headed)
  | .header h :: rest =>
    let (under, headed) := sections rest
    ([], (h, under) :: headed)

def addSection (root : Entries Node) : Header × List Assignment → Option (Entries Node)
  | (.table path, under) => Node.follow (Node.placeTable (assignAll under)) path root
  | (.item path, under) => Node.follow (Node.placeItem (assignAll under)) path root

def byteOrderMark : Char := '\ufeff'

def withoutMark : List Char → List Char
  | c :: rest => if c = byteOrderMark then rest else c :: rest
  | [] => []

end Parser

/-- The root table of a document. -/
def parse? (text : String) : Option (Entries Toml) := do
  let lines ← whole? Parser.lines (Parser.withoutMark text.toList)
  let (before, headed) := Parser.sections lines
  let root ← headed.foldlM Parser.addSection (← Parser.assignAll before [])
  pure (Node.toTomlEntries root)

end TemplateCost.Toml
