import TemplateCost.Text.Reader

/-! # Escapes in quoted text

Characters that formats write after a backslash, and characters written by their number in
hexadecimal digits.
-/
namespace TemplateCost.Text

def hexDigit? (c : Char) : Option Nat :=
  if c.isDigit then some (c.toNat - '0'.toNat)
  else if 'a' ≤ c ∧ c ≤ 'f' then some (c.toNat - 'a'.toNat + 10)
  else if 'A' ≤ c ∧ c ≤ 'F' then some (c.toNat - 'A'.toNat + 10)
  else none

def hexValue? (digits : List Char) : Option Nat :=
  digits.foldlM (fun value c => (hexDigit? c).map fun digit => 16 * value + digit) 0

def unescape? (c : Char) : Option Char :=
  if c = '\x22' ∨ c = '\\' ∨ c = '/' then some c
  else if c = 'b' then some '\x08'
  else if c = 'f' then some '\x0c'
  else if c = 'n' then some '\n'
  else if c = 'r' then some '\r'
  else if c = 't' then some '\t'
  else none

namespace Reader

def times (count : Nat) (p : Reader α) : Reader (List α) :=
  (List.replicate count ()).mapM fun _ => p

/-- The character whose number stands in so many hexadecimal digits, if there is one. -/
def numbered (count : Nat) : Reader Char := do
  let digits ← times count next
  let value ← (hexValue? digits : Option Nat)
  guardThat value.isValidChar
  pure (Char.ofNat value)

end Reader
end TemplateCost.Text
