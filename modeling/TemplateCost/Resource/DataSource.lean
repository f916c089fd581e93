import TemplateCost.Decimal.Integer
import TemplateCost.Resource.Extract
import TemplateCost.Value.Display

/-! # Data sources

A `data` block with a type and a name is asked of a provider, if there are credentials for it. The
answers are bound to `data.TYPE.NAME`, and references to them are then replaced wherever they stand
in attributes: a text that is one reference takes the value itself, a longer text takes its display
text. What is put in is not searched again, and unknown references stay as they are.
-/
namespace TemplateCost
open Template

structure Credentials where
  accessKey : String
  secretKey : String
  region : String
deriving DecidableEq, Inhabited

structure Query where
  type : String
  attributes : Entries Value
  credentials : Credentials

/-- Who knows credentials by provider, and who answers queries. -/
structure DataSources where
  credentials : String → Option Credentials
  answer : Query → Option Value

namespace DataSources

/-- The key of a block and its query, if its provider has credentials. -/
def query? (sources : DataSources) (env : Environment) (block : Block) : Option (String × Query) :=
  match block.labels with
  | type :: name :: _ =>
    (sources.credentials (providerOf type)).map fun credentials =>
      (dotted ["data", type, name], ⟨type, block.body.values env, credentials⟩)
  | _ => none

def queries (sources : DataSources) (env : Environment) (bodies : List Body) :
    List (String × Query) :=
  (bodies.flatMap (Body.blocksOf "data")).filterMap (sources.query? env)

def answers (sources : DataSources) (asked : List (String × Query)) : Entries Value :=
  Entries.ofList (asked.filterMap fun entry =>
    (sources.answer entry.2).map fun value => (entry.1, value))

end DataSources

namespace Substitution

/-- The part of a value that names and positions lead to. -/
def select : Value → List String → Option Value
  | value, [] => some value
  | .map entries, name :: rest =>
    match Entries.get? name entries with
    | some value => select value rest
    | none => none
  | .list items, position :: rest =>
    match Decimal.readIndex? position.toList with
    | some i => match items[i]? with
      | some value => select value rest
      | none => none
    | none => none
  | _, _ :: _ => none

/-- The text between the marks of a token. -/
def tokenPath? (text : List Char) : Option (List Char) := do
  let tail ← Text.dropMark? ['$', '{'] text
  if tail.getLast? = some '}' then some tail.dropLast else none

/-- The value that a token refers to. -/
def lookup? (resolved : Entries Value) (text : List Char) : Option Value := do
  let path ← tokenPath? text
  if path.contains '{' || path.contains '}' then none
  else match (Text.pieces '.' path).map String.ofList with
    | "data" :: type :: name :: rest => do
      let value ← resolved.get? (dotted ["data", type, name])
      select value rest
    | _ => none

def referenceMark : List Char := "$\x7bdata.".toList

/-- The token that stands at the front of a text: a mark up to the next closing brace. -/
def tokenAt? (text : List Char) : Option (List Char) :=
  if referenceMark.isPrefixOf text then (Text.findMark? ['}'] text).map fun found => found.1 ++ ['}']
  else none

def tokenText (resolved : Entries Value) (token : List Char) : List Char :=
  match lookup? resolved token with
  | some value => value.display.toList
  | none => token

/-- The text with its tokens replaced; the first `taken` characters belong to a token already
written. -/
def splice (resolved : Entries Value) : Nat → List Char → List Char
  | _, [] => []
  | taken + 1, _ :: rest => splice resolved taken rest
  | 0, c :: rest =>
    match tokenAt? (c :: rest) with
    | some token => tokenText resolved token ++ splice resolved (token.length - 1) rest
    | none => c :: splice resolved 0 rest

def replaceText (resolved : Entries Value) (text : String) : Value :=
  if Text.contains referenceMark text.toList then
    match lookup? resolved text.toList with
    | some value => value
    | none => .string (String.ofList (splice resolved 0 text.toList))
  else .string text

mutual
def replace (resolved : Entries Value) : Value → Value
  | .placeholder token => (lookup? resolved token.toList).getD (.placeholder token)
  | .string text => replaceText resolved text
  | .list items => .list (replaceItems resolved items)
  | .map entries => .map (replaceEntries resolved entries)
  | .bool b => .bool b
  | .number n => .number n
def replaceItems (resolved : Entries Value) : List Value → List Value
  | [] => []
  | item :: rest => replace resolved item :: replaceItems resolved rest
def replaceEntries (resolved : Entries Value) : List (String × Value) → List (String × Value)
  | [] => []
  | (key, value) :: rest => (key, replace resolved value) :: replaceEntries resolved rest
end

end Substitution

def Resource.substitute (resolved : Entries Value) (r : Resource) : Resource :=
  { r with attributes := Substitution.replaceEntries resolved r.attributes }

end TemplateCost
