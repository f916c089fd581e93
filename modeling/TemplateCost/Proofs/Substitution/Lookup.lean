import TemplateCost.Proofs.Decimal.Integer
import TemplateCost.Proofs.Text.Search
import TemplateCost.Resource.DataSource
import TemplateCost.Text.Identifier

/-! # References to data

The evaluator writes a reference to data as a dotted path between marks, and the look-up takes that
token apart again. Names hold no dot and no brace and positions are digits, so the parts of the path
are found as they were written; they lead through the data by the keys of maps and the positions of
lists. Only a position in brackets that is outside the signed range is written with its brackets, and
so as another part than the same position after a dot.
-/
namespace TemplateCost
open Template Substitution

/-- How a reference goes on: by a name, or by a position after a dot or in brackets. -/
inductive Access
  | name (text : String)
  | dot (i : Nat)
  | bracket (i : Nat)

/-- A name is made of the characters of identifiers. -/
def IsName (text : String) : Prop := ∀ c ∈ text.toList, Text.continuesIdentifier c = true

instance (text : String) : Decidable (IsName text) :=
  List.decidableBAll (fun c => Text.continuesIdentifier c = true) text.toList

namespace Access

def step : Access → Step
  | name text => .member text
  | dot i => .position i
  | bracket i => .index (.number (.integer i))

/-- The part of a path that stands for the access. -/
def text : Access → String
  | name text => text
  | dot i => Decimal.natText i
  | bracket i => Decimal.natText i

def position? : Access → Option Nat
  | name _ => none
  | dot i => some i
  | bracket i => some i

/-- What the parser yields: names of identifier characters, and positions below 2^64. A greater numeral is
rejected, after a dot as in brackets. -/
def IsParsed : Access → Prop
  | name text => IsName text
  | dot i => i < 2 ^ 64
  | bracket i => i < 2 ^ 64

instance : DecidablePred IsParsed
  | name text => inferInstanceAs (Decidable (IsName text))
  | dot i => inferInstanceAs (Decidable (i < 2 ^ 64))
  | bracket i => inferInstanceAs (Decidable (i < 2 ^ 64))

/-- A position in brackets is written without them only if it is in the signed range. -/
def IsSigned : Access → Prop
  | bracket i => i < 2 ^ 63
  | _ => True

instance : DecidablePred IsSigned
  | name _ => inferInstanceAs (Decidable True)
  | dot _ => inferInstanceAs (Decidable True)
  | bracket i => inferInstanceAs (Decidable (i < 2 ^ 63))

theorem IsParsed.position_lt {a : Access} {i : Nat} (h : a.IsParsed) (hi : a.position? = some i) :
    i < 2 ^ 64 := by
  cases a with
  | name text => cases hi
  | dot j =>
    cases hi
    exact h
  | bracket j =>
    cases hi
    exact h

/-- The evaluator writes an access as its part of the path. -/
theorem IsSigned.step_text {a : Access} (h : a.IsSigned) : a.step.text = a.text := by
  cases a with
  | name _ => rw [step, Step.text, Access.text]
  | dot i => rw [step, Step.text, Access.text]
  | bracket i =>
    obtain ⟨hsome, hvalue⟩ := Decimal.toInt64?_ofNat h
    rw [step, Step.text, Numeral.indexText, hsome]
    change Decimal.integerText (Int64.ofInt i).toInt = _
    rw [hvalue, Decimal.integerText_ofNat, Access.text]

theorem text_of_position {a : Access} {i : Nat} (h : a.position? = some i) :
    a.text = Decimal.natText i := by
  cases a with
  | name text => cases h
  | dot j =>
    cases h
    rfl
  | bracket j =>
    cases h
    rfl

end Access

/-- Where accesses lead inside a value: by the keys of maps and the positions of lists. -/
inductive Leads : Value → List Access → Value → Prop
  | here (v : Value) : Leads v [] v
  | key {entries : List (String × Value)} {a : Access} {path : List Access} {v w : Value}
      (hv : Entries.get? a.text entries = some v) (h : Leads v path w) :
      Leads (.map entries) (a :: path) w
  | item {items : List Value} {a : Access} {i : Nat} {path : List Access} {v w : Value}
      (hi : a.position? = some i) (hv : items[i]? = some v) (h : Leads v path w) :
      Leads (.list items) (a :: path) w

/-- The dotted path of a reference to data. -/
def dataPath (type name : String) (path : List Access) : String :=
  dotted ("data" :: type :: name :: path.map Access.text)

/-- The reference as it is parsed. -/
def dataReference (type name : String) (path : List Access) : Expr :=
  .traversal (.variable "data") (.member type :: .member name :: path.map Access.step)

/-! ## What a path leads to -/

theorem Leads.select {v w : Value} {path : List Access} (h : Leads v path w)
    (hpath : ∀ a ∈ path, a.IsParsed) : select v (path.map Access.text) = some w := by
  induction h with
  | here v => rw [List.map_nil, Substitution.select]
  | key hv _ ih =>
    have hrest := ih fun a ha => hpath a (List.mem_cons_of_mem _ ha)
    rw [List.map_cons, Substitution.select, hv]
    exact hrest
  | item hi hv _ ih =>
    have hrest := ih fun a ha => hpath a (List.mem_cons_of_mem _ ha)
    have hlt := (hpath _ List.mem_cons_self).position_lt hi
    rw [List.map_cons, Access.text_of_position hi, Substitution.select,
      Decimal.readIndex?_natText hlt]
    simpa [hv] using hrest

theorem path?_dataReference {type name : String} {path : List Access}
    (hsigned : ∀ a ∈ path, a.IsSigned) :
    path? (.variable "data") (.member type :: .member name :: path.map Access.step) =
      some (dataPath type name path) := by
  have htexts : (path.map Access.step).map Step.text = path.map Access.text := by
    rw [List.map_map]
    exact List.map_congr_left fun a ha => (hsigned a ha).step_text
  rw [path?, dataPath, List.map_cons, List.map_cons, htexts]
  rfl

/-! ## Parts without dots and braces -/

/-- Text that can stand between the dots of a path and inside a token. -/
structure IsPart (text : String) : Prop where
  dot : '.' ∉ text.toList
  opening : '{' ∉ text.toList
  closing : '}' ∉ text.toList

/-- Characters of which none is a dot or a brace make a part. -/
theorem isPart_of_class {text : String} (p : Char → Bool) (h : ∀ c ∈ text.toList, p c = true)
    (hdot : p '.' = false) (hopening : p '{' = false) (hclosing : p '}' = false) : IsPart text where
  dot hmem := absurd (h _ hmem) (by simp [hdot])
  opening hmem := absurd (h _ hmem) (by simp [hopening])
  closing hmem := absurd (h _ hmem) (by simp [hclosing])

theorem IsName.isPart {text : String} (h : IsName text) : IsPart text :=
  isPart_of_class Text.continuesIdentifier h (by decide) (by decide) (by decide)

theorem isPart_natText (n : Nat) : IsPart (Decimal.natText n) := by
  refine isPart_of_class Char.isDigit ?_ (by decide) (by decide) (by decide)
  intro c hc
  rw [Decimal.toList_natText] at hc
  exact Decimal.isDigit_of_mem_toDigits hc

theorem Access.IsParsed.isPart {a : Access} (h : a.IsParsed) : IsPart a.text := by
  cases a with
  | name text => exact IsName.isPart h
  | dot i => exact isPart_natText i
  | bracket i => exact isPart_natText i

theorem isPart_data : IsPart "data" := ⟨by decide, by decide, by decide⟩

theorem toList_dotted (parts : List String) :
    (dotted parts).toList = ['.'].intercalate (parts.map String.toList) :=
  String.toList_intercalate

theorem pieces_dotted {parts : List String} (h : ∀ part ∈ parts, IsPart part) (hne : parts ≠ []) :
    (Text.pieces '.' (dotted parts).toList).map String.ofList = parts := by
  rw [toList_dotted, Text.pieces_intercalate]
  · simp [Function.comp_def]
  · intro text ht
    obtain ⟨part, hp, rfl⟩ := List.mem_map.mp ht
    exact (h part hp).dot
  · simpa using hne

theorem not_mem_dotted {c : Char} (hc : c ≠ '.') {parts : List String}
    (h : ∀ part ∈ parts, c ∉ part.toList) : c ∉ (dotted parts).toList := by
  rw [toList_dotted]
  refine Text.not_mem_intercalate hc ?_
  intro text ht
  obtain ⟨part, hp, rfl⟩ := List.mem_map.mp ht
  exact h part hp

/-! ## Reading tokens back -/

theorem toList_token (inner : String) : (token inner).toList = '$' :: '{' :: inner.toList ++ ['}'] := by
  simp [token]

theorem tokenPath?_token (inner : String) : tokenPath? (token inner).toList = some inner.toList := by
  rw [toList_token]
  simp [tokenPath?, Text.dropMark?]

theorem lookup?_token (resolved : Entries Value) {type name : String} {rest : List String}
    (h : ∀ part ∈ "data" :: type :: name :: rest, IsPart part) :
    lookup? resolved (token (dotted ("data" :: type :: name :: rest))).toList =
      (resolved.get? (dotted ["data", type, name])).bind fun value => select value rest := by
  have hopen := not_mem_dotted (c := '{') (by decide) fun part hp => (h part hp).opening
  have hclose := not_mem_dotted (c := '}') (by decide) fun part hp => (h part hp).closing
  have hpieces := pieces_dotted h (by simp)
  rw [lookup?, tokenPath?_token]
  simp [hopen, hclose, hpieces]

theorem isPart_of_mem_dataPath {type name part : String} {path : List Access} (htype : IsName type)
    (hname : IsName name) (hpath : ∀ a ∈ path, a.IsParsed)
    (h : part ∈ "data" :: type :: name :: path.map Access.text) : IsPart part := by
  simp only [List.mem_cons, List.mem_map] at h
  rcases h with rfl | rfl | rfl | ⟨a, ha, rfl⟩
  · exact isPart_data
  · exact htype.isPart
  · exact hname.isPart
  · exact (hpath a ha).isPart

/-- The token of a reference to known data is read as what the path leads to. -/
theorem lookup?_dataPath {resolved : Entries Value} {type name : String} {path : List Access}
    {v w : Value} (htype : IsName type) (hname : IsName name) (hpath : ∀ a ∈ path, a.IsParsed)
    (hknown : resolved.get? (dotted ["data", type, name]) = some v) (h : Leads v path w) :
    lookup? resolved (token (dataPath type name path)).toList = some w := by
  rw [dataPath, lookup?_token resolved fun _ hp => isPart_of_mem_dataPath htype hname hpath hp,
    hknown, Option.bind_some, h.select hpath]

/-! ## References that are not bound -/

theorem toList_dataPath (type name : String) (path : List Access) :
    ∃ tail, (dataPath type name path).toList = "data.".toList ++ tail := by
  rw [dataPath, toList_dotted]
  exact ⟨['.'].intercalate ((type :: name :: path.map Access.text).map String.toList), by simp⟩

theorem bareName_dataPath (type name : String) (path : List Access) :
    bareName (dataPath type name path) = dataPath type name path := by
  obtain ⟨tail, ht⟩ := toList_dataPath type name path
  rw [bareName, ht]
  rfl

theorem resolve_dataPath {env : Environment} {type name : String} {path : List Access}
    (h : env.get? (dataPath type name path) = none) :
    env.resolve (dataPath type name path) = .unresolved (dataPath type name path) := by
  rw [Environment.resolve, bareName_dataPath, h]

end TemplateCost
