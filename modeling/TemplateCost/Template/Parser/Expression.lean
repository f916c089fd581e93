import TemplateCost.Template.Chain
import TemplateCost.Template.Parser.Number
import TemplateCost.Template.Parser.Part

/-! # Expressions

Each rule is given the readers for the expressions inside it, so the grammar is one definition by
recursion on the number of levels that may still be opened. A template means what its text means
without quotes: its parts are written out and read once more. Most templates have the parts that
they were written with; but a literal that ends in the first half of a marker, right before the
other half, joins with what follows, and a marker in literal text that escaping passes over is one
again. Inside a template no template is read twice.
-/
namespace TemplateCost.Template
open Text
open Text.Reader hiding many ahead

namespace BinaryOp

/-- All operators; one that starts with another comes before it. -/
def spellings : List (String × BinaryOp) :=
  [("==", .equal), ("!=", .notEqual), ("<=", .lessEqual), (">=", .greaterEqual), ("<", .less),
   (">", .greater), ("+", .plus), ("-", .minus), ("*", .times), ("/", .divide), ("%", .modulo),
   ("&&", .and), ("||", .or)]

/-- Operators in groups of one precedence, the tightest group first. -/
def precedence : List (List BinaryOp) :=
  [[.times, .divide, .modulo], [.plus, .minus], [.less, .lessEqual, .greater, .greaterEqual],
   [.equal, .notEqual], [.and], [.or]]

/-- Joins operands around the operators of one group, from left to right. -/
def join (group : List BinaryOp) (left : Expr) :
    List (BinaryOp × Expr) → Expr × List (BinaryOp × Expr)
  | [] => (left, [])
  | (op, right) :: rest =>
    if group.contains op then join group (.binary op left right) rest
    else
      let (joined, more) := join group right rest
      (left, (op, joined) :: more)

def tree (first : Expr) (rest : List (BinaryOp × Expr)) : Expr :=
  (precedence.foldl (fun chain group => join group chain.1 chain.2) (first, rest)).1

end BinaryOp

/-- The expression that a bare word stands for. -/
def Expr.ofWord (name : String) : Expr :=
  match name with
  | "null" => .null
  | "true" => .bool true
  | "false" => .bool false
  | other => .variable other

def Key.ofExpr (key : Expr) : Key :=
  match key with
  | .variable name => .identifier name
  | other => .expression other

namespace Parser

def longestChain : Nat := 128

namespace Inner
variable (inner : Inner)
open Scribe

def binaryOp : Scribe BinaryOp := do
  let op ← BinaryOp.spellings.foldr (fun entry other => (mark entry.1 *> pure entry.2) <|> other)
    failure
  guardThat !(op = .divide && (← Reader.ahead (char '/' <|> char '*')))
  pure op

def unaryOp : Scribe UnaryOp :=
  (mark "-" *> pure .negate) <|> (mark "!" *> pure .not)

def numeral (p : Reader Numeral) : Scribe Expr := do
  let (source, n) ← withSource p
  keep (.number n source)
  pure (.number n)

/-! ## Brackets -/

def parens : Scribe Expr := do
  mark "("
  let e ← after .multiline (inner.nested.expression .multiline)
  after .multiline (mark ")")
  pure (.parens e)

/-- Whether a loop follows a bracket. -/
def startsLoop : Scribe Bool := ahead (do
  after .multiline (mark "for")
  char ' ' <|> char '\t' <|> char '\n')

def loopCondition : Scribe (List Expr) := do
  let condition ← optional (do after .multiline (mark "if"); onOneLine inner.nested)
  pure condition.toList

def forList : Scribe Expr := do
  after .multiline (mark "for")
  let (names, collection) ← loopIntro inner.nested
  after .multiline (mark ":")
  let value ← onOneLine inner.nested
  pure (.forEach names collection (value :: (← inner.loopCondition)))

def forObject : Scribe Expr := do
  after .multiline (mark "for")
  let (names, collection) ← loopIntro inner.nested
  after .multiline (mark ":")
  let key ← onOneLine inner.nested
  after .multiline (mark "=>")
  let value ← onOneLine inner.nested
  let _ ← optional (after .multiline (mark "..."))
  pure (.forEach names collection (key :: value :: (← inner.loopCondition)))

/-- Items separated by commas, with nothing before the first one. -/
def separated : Scribe (List Expr) := do
  let first ← inner.nested.expression .multiline
  let more ← many (do
    after .multiline (mark ",")
    after .multiline (inner.nested.expression .multiline))
  pure (first :: more)

/-- Items up to the closing bracket, where the last one may have a trailer. -/
def items (trailer : Scribe Unit) : Scribe (List Expr) := do
  match ← optional (after .multiline inner.separated) with
  | none => do
    gap .multiline
    pure []
  | some items => do
    let trailed ← optional (after .multiline trailer)
    if trailed.isSome then gap .multiline else skip .multiline
    pure items

def list : Scribe Expr := do
  mark "["
  let e ← if ← startsLoop then inner.forList else .list <$> inner.items (mark ",")
  after .multiline (mark "]")
  widen
  pure e

/-- Ends an item of an object: a comma, a line end or the closing brace, which is left. -/
def itemEnd : Scribe Unit := do
  skip .inline
  mark ","
    <|> (do
      if let some comment ← optional lineComment then keep (.blank comment)
      newline
      keep (.mark ['\n']))
    <|> (do guardThat (← ahead (mark "\x7d")))

def item : Scribe (List Piece × Key × Expr) := do
  let (pieces, key) ← withPieces (inner.nested.expression .inline)
  after .inline (mark "=" <|> mark ":")
  let value ← after .inline (inner.nested.expression .inline)
  itemEnd
  pure (pieces, .ofExpr key, value)

def object : Scribe Expr := do
  let items ← many (after .multiline inner.item)
  guardThat (distinctKeys (items.map Prod.fst))
  gap .multiline
  pure (.object (items.map Prod.snd))

def braces : Scribe Expr := do
  mark "\x7b"
  let loops ← startsLoop
  let e ← if loops then inner.forObject else inner.object
  after .multiline (mark "\x7d")
  if loops then widen
  pure e

/-! ## Words and calls -/

def arguments : Scribe (List Expr) := do
  mark "("
  let items ← inner.items (mark "," <|> mark "...")
  mark ")"
  widen
  pure items

def named : Scribe Expr := do
  let first ← name
  let more ← many (do further (mark "::"); further name)
  if ← ahead (further (mark "(")) then
    pure (.call (String.intercalate "::" (first :: more)) (← further inner.arguments))
  else
    guardThat more.isEmpty
    pure (.ofWord first)

def term : Scribe Expr := do
  match ← peek? with
  | some '\x22' => inner.quotedText
  | some '<' => inner.heredoc
  | some '(' => inner.parens
  | some '[' => inner.list
  | some '{' => inner.braces
  | some c => if c.isDigit then numeral number else inner.named
  | none => failure

/-! ## Traversals and operations -/

/-- A position of several digits does not start with a zero. -/
def position : Scribe Nat := do
  let digits ← span1 Char.isDigit
  let n := Decimal.digitsValue digits
  guardThat (n < 0x10000000000000000 && (digits.length = 1 || digits.head? ≠ some '0'))
  keep (.mark digits)
  pure n

def dotStep : Scribe Step := do
  mark "."; skip .multiline
  (mark "*" *> pure .attributeSplat) <|> (.position <$> position) <|> (.member <$> name)

def indexStep : Scribe Step := do
  mark "["; skip .multiline
  let step ← (mark "*" *> pure Step.fullSplat)
    <|> (Step.index <$> inner.nested.expression .multiline)
  after .multiline (mark "]")
  pure step

def traversal (root : Scribe Expr) : Scribe Expr := do
  let root ← root
  let steps ← many (further (dotStep <|> inner.indexStep))
  pure (if steps.isEmpty then root else .traversal root steps)

/-- A minus sign before a number belongs to it. -/
def negative : Reader Numeral := do
  char '-'
  Numeral.negate <$> afterBlanks .inline number

def operand : Scribe Expr := do
  if ← ahead (do char '-'; skipBlanks .inline; span1 Char.isDigit) then
    inner.traversal (numeral negative)
  else if ← ahead unaryOp then
    let op ← unaryOp
    .unary op <$> after .inline inner.nested.operand
  else inner.traversal inner.term

def operation : Scribe Expr := do
  let first ← inner.operand
  let rest ← many (do
    let op ← further binaryOp
    let right ← further inner.operand
    pure (op, right))
  let tree := BinaryOp.tree first rest
  guardThat (rest.isEmpty || tree.load ≤ longestChain)
  pure tree

def expression (spacing : Spacing) : Scribe Expr := within spacing (do
  let condition ← inner.operation
  if ← ahead (further (mark "?")) then
    let branch := do inner.nested.expression (← get).spacing
    further (mark "?")
    let yes ← further branch
    further (mark ":")
    let no ← further branch
    pure (.conditional condition yes no)
  else pure condition)

def level : Level := ⟨inner.expression, inner.operand, inner.template plainLiteral⟩

end Inner

/-! ## Levels -/

/-- Expressions and blocks nest this deep, the outermost counted. -/
def deepest : Nat := 65

/-- The level inside a template that may open `levels - 1` levels further in. -/
def embedded : Nat → Level
  | 0 => .none
  | levels + 1 =>
    let inner := embedded levels
    Inner.level ⟨inner, inner, fun parts => .quoted (Part.elements parts)⟩

def bareTemplate? (text : List Char) : Option (List Part) :=
  whole? (Scribe.toReader (embedded deepest).body) text

/-- What a template means after its second reading. -/
def secondReading (parts : List Part) : Expr :=
  match bareTemplate? (Part.bareText parts) with
  | some again => .quoted (Part.elements again)
  | none => .malformed

/-- The level outside all templates. -/
def outermost : Nat → Level
  | 0 => .none
  | levels + 1 => Inner.level ⟨outermost levels, embedded levels, secondReading⟩

end Parser
end TemplateCost.Template
