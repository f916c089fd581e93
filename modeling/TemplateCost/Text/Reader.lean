import TemplateCost.Text.Search

/-! # Reading text from the front

A reader takes what it understands from the front of a text and leaves the rest; an alternative
starts again where the first reader started. Repetition is bounded by the length of the text, which
no run of readers that each take a character can exceed.
-/
namespace TemplateCost.Text

abbrev Reader := StateT (List Char) Option

namespace Reader

def next : Reader Char
  | [] => none
  | c :: rest => some (c, rest)

def peek? : Reader (Option Char) := fun text => some (text.head?, text)

def char (c : Char) : Reader Unit
  | [] => none
  | d :: rest => if c = d then some ((), rest) else none

def word (w : String) : Reader Unit := fun text => (dropMark? w.toList text).map fun rest => ((), rest)

/-- Holds where `p` would succeed; takes nothing. -/
def ahead (p : Reader α) : Reader Bool := fun text => some ((p text).isSome, text)

def span (p : Char → Bool) : Reader (List Char) := fun text => some (text.span p)

def span1 (p : Char → Bool) : Reader (List Char) := do
  let taken ← span p
  if taken.isEmpty then failure else pure taken

/-- Repeats `p`, which is told what its last run found, at most once for each character of `fuel`. -/
def repeated (p : σ → Reader (α × σ)) : List Char → σ → List Char → (List α × σ) × List Char
  | [], s, text => (([], s), text)
  | _ :: fuel, s, text =>
    match p s text with
    | none => (([], s), text)
    | some ((a, t), rest) =>
      let ((more, final), last) := repeated p fuel t rest
      ((a :: more, final), last)

def manyFrom (p : σ → Reader (α × σ)) (s : σ) : Reader (List α × σ) := fun text =>
  some (repeated p text s text)

def many (p : Reader α) : Reader (List α) :=
  Prod.fst <$> manyFrom (fun _ => do pure (← p, ())) ()

def guardThat (b : Bool) : Reader Unit := if b then pure () else failure

/-- The text that `p` takes, beside its result. -/
def withSource (p : Reader α) : Reader (List Char × α) := fun text =>
  (p text).map fun (a, rest) => ((text.take (text.length - rest.length), a), rest)

def atEnd : Reader Unit
  | [] => some ((), [])
  | _ :: _ => none

/-- Lines end with a line feed, alone or after a carriage return. -/
def newline : Reader Unit
  | '\n' :: rest => some ((), rest)
  | '\r' :: '\n' :: rest => some ((), rest)
  | _ => none

def whole? (p : Reader α) (text : List Char) : Option α :=
  match p text with
  | some (a, []) => some a
  | _ => none

end Reader
end TemplateCost.Text
