import Mathlib.Algebra.Group.Nat.Defs
import TemplateCost.Decimal.Integer

/-! # Integers read back

The digits of a natural number are read back as that number, as a position as long as it is in the
unsigned range. Small integers are written like the natural numbers that they are.
-/
namespace TemplateCost.Decimal

theorem digitsValue_toDigits (n : Nat) : digitsValue (Nat.toDigits 10 n) = n :=
  Nat.ofDigitChars_ten_toDigits

theorem isDigit_of_mem_toDigits {c : Char} {n : Nat} (h : c ∈ Nat.toDigits 10 n) :
    c.isDigit = true :=
  Nat.isDigit_of_mem_toDigits (by decide) (by decide) h

theorem readDigits?_toDigits (n : Nat) : readDigits? (Nat.toDigits 10 n) = some n := by
  rw [readDigits?, if_pos, digitsValue_toDigits]
  exact ⟨Nat.toDigits_ne_nil, List.all_eq_true.mpr fun c hc => isDigit_of_mem_toDigits hc⟩

theorem isDigit_of_readDigits? {text : List Char} {n : Nat} (h : readDigits? text = some n) :
    ∀ c ∈ text, c.isDigit = true := by
  rw [readDigits?] at h
  split at h
  · rename_i hdigits
    exact List.all_eq_true.mp hdigits.2
  · cases h

theorem digits_of_readInteger? {text : List Char} {value : Int}
    (h : readInteger? text = some value) :
    ∃ digits n, readDigits? digits = some n ∧
      (text = digits ∨ text = '+' :: digits ∨ text = '-' :: digits) := by
  rw [readInteger?.eq_def] at h
  split at h
  · rename_i digits
    obtain ⟨n, hn, _⟩ := Option.map_eq_some_iff.mp h
    exact ⟨digits, n, hn, by simp⟩
  · rename_i digits
    cases hn : readDigits? digits with
    | none => simp [hn] at h
    | some n => exact ⟨digits, n, hn, by simp⟩
  · obtain ⟨n, hn, _⟩ := Option.map_eq_some_iff.mp h
    exact ⟨text, n, hn, by simp⟩

/-- An integer is written with digits and a sign, and with nothing else. -/
theorem isDigit_or_sign_of_readInt64? {text : List Char} {i : Int64}
    (h : readInt64? text = some i) : ∀ c ∈ text, c.isDigit = true ∨ c = '+' ∨ c = '-' := by
  obtain ⟨value, hread, _⟩ := Option.bind_eq_some_iff.mp h
  obtain ⟨digits, n, hn, htext⟩ := digits_of_readInteger? hread
  have hdigits := isDigit_of_readDigits? hn
  intro c hc
  rcases htext with rfl | rfl | rfl
  · exact Or.inl (hdigits c hc)
  · exact (List.mem_cons.mp hc).elim (fun hsign => Or.inr (Or.inl hsign))
      fun hc => Or.inl (hdigits c hc)
  · exact (List.mem_cons.mp hc).elim (fun hsign => Or.inr (Or.inr hsign))
      fun hc => Or.inl (hdigits c hc)

theorem toList_natText (n : Nat) : (natText n).toList = Nat.toDigits 10 n := String.toList_ofList

/-- Digits start with a digit, in particular with no sign. -/
theorem toDigits_ne_cons {c : Char} (hc : c.isDigit = false) (n : Nat) (rest : List Char) :
    Nat.toDigits 10 n ≠ c :: rest := by
  intro h
  have hdigit := isDigit_of_mem_toDigits (c := c) (n := n) (by rw [h]; exact List.mem_cons_self)
  rw [hc] at hdigit
  cases hdigit

theorem readIndex?_natText {n : Nat} (h : n < 2 ^ 64) : readIndex? (natText n).toList = some n := by
  have hvalue := readDigits?_toDigits n
  simp only [readIndex?, toList_natText]
  split
  · rename_i rest heq
    exact absurd heq (toDigits_ne_cons rfl n rest)
  · simpa [hvalue] using h

theorem toInt64?_ofNat {n : Nat} (h : n < 2 ^ 63) :
    toInt64? n = some (Int64.ofInt n) ∧ (Int64.ofInt n).toInt = n := by
  constructor
  · rw [toInt64?, if_pos]
    simp only [inInt64, Bool.and_eq_true, decide_eq_true_eq]
    omega
  · rw [Int64.toInt_ofInt_of_le (by omega) (by omega)]

theorem integerText_ofNat (n : Nat) : integerText n = natText n := by
  rw [integerText, if_neg (by omega), Int.natAbs_natCast]

/-! ## Signed integers -/

theorem toInt64?_toInt (i : Int64) : toInt64? i.toInt = some i := by
  have hlow := i.le_toInt
  have hhigh := i.toInt_lt
  rw [toInt64?, if_pos, Int64.ofInt_toInt]
  simp only [inInt64, Bool.and_eq_true, decide_eq_true_eq]
  omega

theorem readInteger?_integerText (i : Int) : readInteger? (integerText i).toList = some i := by
  have hdigits := readDigits?_toDigits i.natAbs
  by_cases hneg : i < 0
  · have htext : (integerText i).toList = '-' :: Nat.toDigits 10 i.natAbs := by
      simp [integerText, hneg, toList_natText]
    have habs : -(i.natAbs : Int) = i := by omega
    rw [htext, readInteger?, hdigits]
    exact congrArg some habs
  · have htext : (integerText i).toList = Nat.toDigits 10 i.natAbs := by
      simp [integerText, hneg, toList_natText]
    rw [htext, readInteger?.eq_def]
    split
    · rename_i rest heq
      exact absurd heq (toDigits_ne_cons rfl _ rest)
    · rename_i rest heq
      exact absurd heq (toDigits_ne_cons rfl _ rest)
    · rw [hdigits]
      exact congrArg some (Int.natAbs_of_nonneg (by omega))

theorem readInt64?_int64Text (i : Int64) : readInt64? (int64Text i).toList = some i := by
  rw [readInt64?, int64Text, readInteger?_integerText]
  exact toInt64?_toInt i

end TemplateCost.Decimal
