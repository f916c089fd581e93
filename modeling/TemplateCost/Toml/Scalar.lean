import TemplateCost.Decimal.Scan
import TemplateCost.Text.Escape
import TemplateCost.Toml.Basic

/-! # Scalars of TOML

Strings in their four forms, numbers, dates and times. Underscores stand only between digits, and a
decimal integer does not start with a zero. Text over several lines keeps its line ends, except for
one right after the opening quotes.
-/
namespace TemplateCost.Toml.Parser
open Text Text.Reader

def isBlankChar (c : Char) : Bool := c = ' ' || c = '\t'

def blanks : Reader Unit := do let _ ← span isBlankChar

/-- Characters that stand in comments and strings as they are. -/
def isPlain (c : Char) : Bool := c = '\t' || (0x20 ≤ c.toNat && c.toNat ≠ 0x7f)

def comment : Reader Unit := do
  char '#'
  let _ ← span isPlain

/-! ## Strings -/

def escape : Reader Char := do
  char '\\'
  match ← next with
  | 'u' => numbered 4
  | 'U' => numbered 8
  | 'x' => numbered 2
  | 'e' => pure '\x1b'
  | '/' => failure
  | c => (unescape? c : Option Char)

def basicChar : Reader Char := escape <|> do
  let c ← next
  guardThat (isPlain c && c ≠ '\x22' && c ≠ '\\')
  pure c

def basicString : Reader String := do
  char '\x22'
  let text ← many basicChar
  char '\x22'
  pure (String.ofList text)

def literalString : Reader String := do
  char '\x27'
  let text ← span fun c => isPlain c && c ≠ '\x27'
  char '\x27'
  pure (String.ofList text)

def lineBreak : Reader (List Char) := do
  let (source, _) ← withSource newline
  pure source

/-- A backslash at the end of a line takes all blanks and line ends after it away. -/
def lineContinuation : Reader (List Char) := do
  char '\\'; blanks; newline
  let _ ← many (newline <|> (do let _ ← span1 isBlankChar))
  pure []

def quoteRun (quote : Char) : Reader (List Char) := do
  guardThat !(← ahead (do char quote; char quote; char quote))
  char quote
  pure [quote]

def delimiter (quote : Char) : Reader Unit := do char quote; char quote; char quote

/-- Text between tripled quotes; one or two quotes may stand right before the closing ones. -/
def severalLines (quote : Char) (piece : Reader (List Char)) : Reader String := do
  delimiter quote
  let _ ← optional newline
  let text ← many (piece <|> lineBreak <|> quoteRun quote)
  let extra ← closing 2 <|> closing 1 <|> closing 0
  pure (String.ofList (text.flatten ++ extra))
where
  closing (n : Nat) : Reader (List Char) := do
    delimiter quote
    let quotes ← times n (do char quote; pure quote)
    guardThat !(← ahead (char quote))
    pure quotes

def basicLines : Reader String := severalLines '\x22'
  (lineContinuation <|> (do return [← basicChar]))

def literalLines : Reader String := severalLines '\x27' (span1 fun c => isPlain c && c ≠ '\x27')

def string : Reader String := do
  if ← ahead (delimiter '\x22') then basicLines
  else if ← ahead (delimiter '\x27') then literalLines
  else basicString <|> literalString

/-! ## Numbers -/

/-- Digits with single underscores between them. -/
def digits (isDigit : Char → Bool) : Reader (List Char) := do
  let first ← span1 isDigit
  let more ← many (do char '_'; span1 isDigit)
  pure (first ++ more.flatten)

def sign : Reader Bool := (char '-' *> pure true) <|> (char '+' *> pure false) <|> pure false

/-- Integers of 128 bits are read, with or without a sign bit. -/
def inReach (i : Int) : Bool :=
  -0x80000000000000000000000000000000 ≤ i && i < 0x100000000000000000000000000000000

def radixInteger (letter : Char) (radix : Nat) (isDigit : Char → Bool) : Reader Toml := do
  char '0'; char letter
  let taken ← digits isDigit
  let value := taken.foldl (fun n c => radix * n + ((hexDigit? c).getD 0)) 0
  guardThat (inReach value)
  pure (.integer value)

def isHex (c : Char) : Bool := (hexDigit? c).isSome
def isOctal (c : Char) : Bool := '0' ≤ c && c ≤ '7'
def isBinary (c : Char) : Bool := c = '0' || c = '1'

def infinite (negative : Bool) : Toml := .float (Decimal.negateIf negative Decimal.infinity)

def exponent : Reader Int := do
  char 'e' <|> char 'E'
  let negative ← sign
  let taken ← digits Char.isDigit
  pure (if negative then -(Decimal.digitsValue taken : Int) else Decimal.digitsValue taken)

def decimal : Reader Toml := do
  let negative ← sign
  (word "inf" *> pure (infinite negative)) <|> (word "nan" *> pure (.float Decimal.notANumber)) <|> do
  let whole ← digits Char.isDigit
  guardThat (whole.length = 1 || whole.head? ≠ some '0')
  let fraction ← optional (char '.' *> digits Char.isDigit)
  let power ← optional exponent
  if fraction.isNone && power.isNone then
    let value : Int := Decimal.digitsValue whole
    let signed := if negative then -value else value
    guardThat (inReach signed)
    pure (.integer signed)
  else
    let f := (Decimal.Parts.mk whole (fraction.getD []) (power.getD 0)).value
    guardThat f.isFinite
    pure (.float (Decimal.negateIf negative f))

def number : Reader Toml :=
  radixInteger 'x' 16 isHex <|> radixInteger 'o' 8 isOctal <|> radixInteger 'b' 2 isBinary <|> decimal

/-! ## Dates and times -/

def fixedDigits (count : Nat) : Reader Nat := do
  let taken ← times count next
  guardThat (taken.all Char.isDigit)
  pure (Decimal.digitsValue taken)

def isLeapYear (year : Nat) : Bool := year % 4 = 0 && (year % 100 ≠ 0 || year % 400 = 0)

def daysOfMonth (year month : Nat) : Nat :=
  if month = 2 then (if isLeapYear year then 29 else 28)
  else if [4, 6, 9, 11].contains month then 30 else 31

def date : Reader (Nat × Nat × Nat) := do
  let year ← fixedDigits 4
  char '-'
  let month ← fixedDigits 2
  char '-'
  let day ← fixedDigits 2
  guardThat (1 ≤ month && month ≤ 12 && 1 ≤ day && day ≤ daysOfMonth year month)
  pure (year, month, day)

/-- A fraction of a second in nanoseconds; further digits are cut off. -/
def nanoseconds (taken : List Char) : Nat :=
  Decimal.digitsValue ((taken ++ List.replicate 9 '0').take 9)

def seconds : Reader (Nat × Nat) := do
  char ':'
  let second ← fixedDigits 2
  let fraction ← optional (char '.' *> span1 Char.isDigit)
  pure (second, (fraction.map nanoseconds).getD 0)

/-- A time without seconds stands for the start of its minute. -/
def time : Reader (Nat × Nat × Nat × Nat) := do
  let hour ← fixedDigits 2
  char ':'
  let minute ← fixedDigits 2
  let (second, fraction) ← seconds <|> pure (0, 0)
  guardThat (hour ≤ 23 && minute ≤ 59 && second ≤ 60)
  pure (hour, minute, second, fraction)

def offset : Reader (Option Int) :=
  ((char 'Z' <|> char 'z') *> pure none) <|> do
    let negative ← (char '-' *> pure true) <|> (char '+' *> pure false)
    let hour ← fixedDigits 2
    char ':'
    let minute ← fixedDigits 2
    guardThat (hour ≤ 23 && minute ≤ 59)
    let total : Int := hour * 60 + minute
    pure (some (if negative then -total else total))

def timestamp : Reader Timestamp :=
  (do
    let date ← date
    let time ← optional (do char 'T' <|> char 't' <|> char ' '; time)
    let offset ← if time.isSome then optional offset else pure none
    pure ⟨some date, time, offset⟩)
  <|> (do pure ⟨none, some (← time), none⟩)

/-- What may not follow a scalar that has no closing mark. -/
def continuesScalar (c : Char) : Bool := c.isAlphanum || c = '_' || c = '-' || c = '+' || c = '.' || c = ':'

def unquoted (p : Reader Toml) : Reader Toml := do
  let value ← p
  guardThat !((← peek?).any continuesScalar)
  pure value

def scalar : Reader Toml := do
  match ← peek? with
  | some '\x22' | some '\x27' => .string <$> string
  | some 't' => unquoted (word "true" *> pure (.bool true))
  | some 'f' => unquoted (word "false" *> pure (.bool false))
  | _ => unquoted (.timestamp <$> timestamp) <|> unquoted number

end TemplateCost.Toml.Parser
