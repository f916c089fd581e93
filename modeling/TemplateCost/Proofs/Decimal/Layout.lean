import Mathlib.Data.String.Basic
import Mathlib.Data.List.Basic
import TemplateCost.Decimal.Layout
import TemplateCost.Decimal.Scan
import TemplateCost.Proofs.Decimal.Integer

/-! # What a layout writes

Whatever the notation, the text of a finite double is a sign, digits, a point with further digits and
an exponent. The digits before the point are never missing and never padded with zeros.
-/
namespace TemplateCost.Decimal

theorem toDigits_head_ne_zero {n : Nat} (h : n ≠ 0) : (Nat.toDigits 10 n).head? ≠ some '0' := by
  induction n using Nat.strong_induction_on with
  | _ n ih =>
    by_cases hsmall : n < 10
    · rw [Nat.toDigits_of_lt_base hsmall]
      simpa using h
    · rw [Nat.toDigits_of_base_le (by decide) (by omega),
        List.head?_append_of_ne_nil _ Nat.toDigits_ne_nil]
      exact ih (n / 10) (by omega) (by omega)

theorem isDigit_of_mem_replicate {k : Nat} {c : Char} (h : c ∈ List.replicate k '0') :
    c.isDigit = true := by
  rw [List.eq_of_mem_replicate h]
  rfl

/-- Digits before the point, of which there is at least one and no needless zero, and digits after it. -/
structure Parts.IsWritten (p : Parts) : Prop where
  whole_ne_nil : p.whole ≠ []
  whole_digits : ∀ c ∈ p.whole, c.isDigit = true
  fraction_digits : ∀ c ∈ p.fraction, c.isDigit = true
  not_padded : p.whole.length = 1 ∨ p.whole.head? ≠ some '0'

/-- The digits with a point between them, unless none follow it. -/
def Parts.pointText (p : Parts) : List Char :=
  p.whole ++ if p.fraction = [] then [] else '.' :: p.fraction

/-! ## Positional notation -/

def positionalParts (wholePoint : Bool) (d : Digits) : Parts :=
  let digits := Nat.toDigits 10 d.significand
  let places := (-d.exponent).toNat
  if 0 ≤ d.exponent then
    ⟨digits ++ (if d.significand = 0 then [] else List.replicate d.exponent.toNat '0'),
      if wholePoint then ['0'] else [], 0⟩
  else if digits.length ≤ places then ⟨['0'], List.replicate (places - digits.length) '0' ++ digits, 0⟩
  else ⟨digits.take (digits.length - places), digits.drop (digits.length - places), 0⟩

theorem toList_positionalText (wholePoint : Bool) (d : Digits) :
    (positionalText wholePoint d).toList = (positionalParts wholePoint d).pointText := by
  have hdigits : (Nat.toDigits 10 d.significand) ≠ [] := Nat.toDigits_ne_nil
  unfold positionalText positionalParts Parts.pointText
  dsimp only
  split
  · split <;> cases wholePoint <;> simp [zeros]
  · rename_i hexponent
    split
    · simp [zeros, hdigits]
    · rename_i hlength
      have hrest : (Nat.toDigits 10 d.significand).drop
          ((Nat.toDigits 10 d.significand).length - (-d.exponent).toNat) ≠ [] := by
        rw [ne_eq, List.drop_eq_nil_iff]
        omega
      simp [hrest]

theorem positionalParts_isWritten (wholePoint : Bool) (d : Digits) :
    (positionalParts wholePoint d).IsWritten := by
  have hdigits : ∀ c ∈ Nat.toDigits 10 d.significand, c.isDigit = true :=
    fun c hc => isDigit_of_mem_toDigits hc
  have hne : (Nat.toDigits 10 d.significand) ≠ [] := Nat.toDigits_ne_nil
  unfold positionalParts
  dsimp only
  split
  · split
    · rename_i hzero
      rw [hzero, List.append_nil]
      refine ⟨by simp, by simp, ?_, Or.inl rfl⟩
      cases wholePoint <;> simp
    · rename_i hpos
      refine ⟨by simp [hne], ?_, ?_, Or.inr ?_⟩
      · intro c hc
        exact (List.mem_append.mp hc).elim (hdigits c) isDigit_of_mem_replicate
      · cases wholePoint <;> simp
      · rw [List.head?_append_of_ne_nil _ hne]
        exact toDigits_head_ne_zero hpos
  · split
    · refine ⟨by simp, by simp, ?_, Or.inl rfl⟩
      intro c hc
      exact (List.mem_append.mp hc).elim isDigit_of_mem_replicate (hdigits c)
    · rename_i hexponent hlength
      -- two digits at least, so the number is not zero
      have hpos : d.significand ≠ 0 := by
        intro hzero
        rw [hzero, Nat.toDigits_zero, List.length_singleton] at hlength
        omega
      refine ⟨?_, fun c hc => hdigits c (List.mem_of_mem_take hc),
        fun c hc => hdigits c (List.mem_of_mem_drop hc), Or.inr ?_⟩
      · rw [ne_eq, List.take_eq_nil_iff]
        simp [hne]
        omega
      · rw [List.head?_take, if_neg (by omega)]
        exact toDigits_head_ne_zero hpos

/-! ## Scientific notation -/

def scientificParts (d : Digits) : Parts :=
  let digits := Nat.toDigits 10 d.significand
  ⟨digits.take 1, digits.drop 1, d.exponent + digits.length - 1⟩

def exponentText (plus : Bool) (exponent : Int) : List Char :=
  'e' :: ((if plus && 0 ≤ exponent then ['+'] else []) ++ (integerText exponent).toList)

theorem toList_scientificText (plus : Bool) (d : Digits) :
    (scientificText plus d).toList =
      (scientificParts d).pointText ++ exponentText plus (scientificParts d).exponent := by
  unfold scientificText scientificParts Parts.pointText exponentText
  dsimp only
  have hlength : (Nat.toDigits 10 d.significand).length ≤ 1 ↔
      (Nat.toDigits 10 d.significand).drop 1 = [] := List.drop_eq_nil_iff.symm
  split <;> split <;> simp_all

theorem scientificParts_isWritten (d : Digits) : (scientificParts d).IsWritten := by
  have hdigits : ∀ c ∈ Nat.toDigits 10 d.significand, c.isDigit = true :=
    fun c hc => isDigit_of_mem_toDigits hc
  have hlength : 0 < (Nat.toDigits 10 d.significand).length := Nat.length_toDigits_pos
  refine ⟨?_, fun c hc => hdigits c (List.mem_of_mem_take hc),
    fun c hc => hdigits c (List.mem_of_mem_drop hc), Or.inl ?_⟩
  · rw [scientificParts, ne_eq, List.take_eq_nil_iff]
    simp [Nat.toDigits_ne_nil]
  · rw [scientificParts, List.length_take]
    omega

/-! ## Both notations -/

def Layout.isPositional (layout : Layout) (d : Digits) : Bool :=
  layout.positional.all fun bounds =>
    let leading := d.exponent + (decimalLength d.significand : Int) - 1
    bounds.1 ≤ leading && leading < bounds.2

/-- The parts of the text that the layout gives to digits. -/
def Layout.parts (layout : Layout) (d : Digits) : Parts :=
  if layout.isPositional d then positionalParts layout.wholePoint d else scientificParts d

theorem Layout.parts_isWritten (layout : Layout) (d : Digits) : (layout.parts d).IsWritten := by
  unfold Layout.parts
  split
  · exact positionalParts_isWritten layout.wholePoint d
  · exact scientificParts_isWritten d

theorem Layout.toList_digitsText (layout : Layout) (d : Digits) :
    (layout.digitsText d).toList = (layout.parts d).pointText ++
      if layout.isPositional d then [] else exponentText layout.exponentPlus (layout.parts d).exponent := by
  have hlayout : layout.digitsText d =
      if layout.isPositional d then positionalText layout.wholePoint d
      else scientificText layout.exponentPlus d := by
    rw [Layout.digitsText, Layout.isPositional]
    cases layout.positional with
    | none => rfl
    | some bounds => simp
  rw [hlayout, Layout.parts]
  split
  · rw [toList_positionalText, List.append_nil]
  · rw [toList_scientificText]

/-- A number without an exponent has a fraction where whole numbers get one. -/
theorem Layout.fraction_ne_nil {layout : Layout} (hpoint : layout.wholePoint = true) {d : Digits}
    (h : layout.isPositional d = true) : (layout.parts d).fraction ≠ [] := by
  have hne : Nat.toDigits 10 d.significand ≠ [] := Nat.toDigits_ne_nil
  rw [Layout.parts, if_pos h, positionalParts, hpoint]
  split
  · simp
  · split
    · simp [hne]
    · rw [ne_eq, List.drop_eq_nil_iff]
      omega

theorem Layout.exponent_eq_zero {layout : Layout} {d : Digits} (h : layout.isPositional d = true) :
    (layout.parts d).exponent = 0 := by
  rw [Layout.parts, if_pos h, positionalParts]
  split
  · rfl
  · split <;> rfl

/-! ## Doubles -/

def signText (negative : Bool) : List Char := if negative then ['-'] else []

/-- The text of a finite double is a sign and the text of its shortest digits. -/
theorem Layout.toList_text (layout : Layout) {f : Float} {b : Binary64}
    (h : Binary64.ofFloat? f = some b) :
    (layout.text f).toList =
      signText b.negative ++ (layout.digitsText (shortest layout.tie b)).toList := by
  rw [Layout.text, h, signText]
  dsimp only
  cases b.negative <;> simp

end TemplateCost.Decimal
