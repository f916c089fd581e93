import TemplateCost.Proofs.Double.Rounded
import TemplateCost.Template.Evaluate
import TemplateCost.Template.Parser.Number

/-! # Whole doubles as integers

A whole double in the signed 64-bit range becomes the integer that it stands for, and any other double stays as
it is. One double is an exception: 2 ^ 63 is beyond the range by one, and is taken for the greatest integer. A
number literal in the range is kept as it is written, and any other becomes what its double becomes.
-/
namespace TemplateCost
open Decimal Double

variable {f : Float} {z : ℤ}

/-! ## Whole doubles -/

/-- The double is whole, and truncation gives it. -/
theorem number?_eq_intCast_iff : number? f = some (z : ℚ) ↔
    ∃ b, Binary64.ofFloat? f = some b ∧ b.isIntegral = true ∧ b.truncate = z := by
  simp only [number?, Option.map_eq_some_iff, Binary64.number_eq_intCast_iff]

theorem toInt_clampInt64 (hlow : -0x8000000000000000 ≤ z) (hhigh : z < 0x8000000000000000) :
    (clampInt64 z).toInt = z := by
  rw [clampInt64, if_neg (by omega), if_neg (by omega)]
  exact Int64.toInt_ofInt_of_le (by omega) (by omega)

theorem toInt64?_eq_some_iff {i : Int64} : toInt64? z = some i ↔ i.toInt = z := by
  constructor
  · intro h
    rw [toInt64?, Option.ite_none_right_eq_some] at h
    obtain ⟨hrange, hi⟩ := h
    simp only [inInt64, Bool.and_eq_true, decide_eq_true_eq] at hrange
    rw [← Option.some.inj hi, Int64.toInt_ofInt_of_le (by omega) (by omega)]
  · rintro rfl
    exact toInt64?_toInt i

namespace Number

theorem ofFloat_of_number? (h : number? f = some (z : ℚ)) (hlow : -0x8000000000000000 ≤ z)
    (hhigh : z ≤ 0x8000000000000000) : Number.ofFloat f = .int (clampInt64 z) := by
  obtain ⟨b, hb, hwhole, rfl⟩ := number?_eq_intCast_iff.mp h
  rw [Number.ofFloat, hb]
  exact if_pos ⟨hwhole, hlow, hhigh⟩

theorem ofFloat_eq_float (h : ∀ z : ℤ, number? f = some (z : ℚ) →
    ¬ (-0x8000000000000000 ≤ z ∧ z ≤ 0x8000000000000000)) : Number.ofFloat f = .float f := by
  rw [Number.ofFloat]
  cases hb : Binary64.ofFloat? f with
  | none => rfl
  | some b =>
    refine if_neg ?_
    rintro ⟨hwhole, hrange⟩
    exact h b.truncate (number?_eq_intCast_iff.mpr ⟨b, hb, hwhole, rfl⟩) hrange

/-- The integer that a double stands for, if it is one of 64 bits, and otherwise the double itself. -/
inductive Collapses (f : Float) : Number → Prop
  | whole {i : Int64} (h : number? f = some (i.toInt : ℚ)) : Collapses f (.int i)
  | kept (h : ∀ i : Int64, number? f ≠ some (i.toInt : ℚ)) : Collapses f (.float f)

/-- The double above all integers of 64 bits, 2 ^ 63. -/
def upperLimit : Float := 9223372036854775808

theorem number?_upperLimit : number? upperLimit = some ((0x8000000000000000 : ℤ) : ℚ) := by
  have hparts : Binary64.ofFloat? upperLimit = some ⟨false, 2 ^ 52, 11⟩ := by decide
  exact number?_eq_intCast_iff.mpr ⟨_, hparts, by decide, by decide⟩

theorem ofFloat_upperLimit : Number.ofFloat upperLimit = .int Int64.maxValue :=
  ofFloat_of_number? number?_upperLimit (by decide) (by decide)

/-- One double is collapsed to an integer that it does not stand for. -/
theorem collapses_ofFloat_iff : Collapses f (Number.ofFloat f) ↔ f ≠ upperLimit := by
  constructor
  · rintro h rfl
    rw [ofFloat_upperLimit] at h
    cases h with
    | whole hwhole =>
      rw [number?_upperLimit, Option.some.injEq, Int.cast_inj] at hwhole
      exact absurd hwhole (by decide)
  · intro hne
    by_cases h : ∃ z : ℤ, number? f = some (z : ℚ) ∧
        -0x8000000000000000 ≤ z ∧ z ≤ 0x8000000000000000
    · obtain ⟨z, hz, hlow, hhigh⟩ := h
      have hlt : z < 0x8000000000000000 := by
        refine lt_of_le_of_ne hhigh ?_
        rintro rfl
        exact hne (eq_of_number? hz number?_upperLimit (by norm_num))
      rw [ofFloat_of_number? hz hlow hhigh]
      exact .whole (by rw [toInt_clampInt64 hlow hlt, hz])
    · rw [ofFloat_eq_float fun z hz hrange => h ⟨z, hz, hrange⟩]
      refine .kept fun i hi => h ⟨i.toInt, hi, i.le_toInt, ?_⟩
      exact i.toInt_lt.le

end Number

/-! ## Literals -/

namespace Template

/-- The double nearest to a literal. -/
def Numeral.double : Numeral → Float
  | .integer i => Float.ofInt i
  | .float f => f

theorem Numeral.value_cases (n : Numeral) :
    (∃ i : Int64, n = .integer i.toInt ∧ n.value = .int i) ∨ n.value = Number.ofFloat n.double := by
  cases n with
  | float f => exact Or.inr rfl
  | integer i =>
    rw [Numeral.value]
    cases h : toInt64? i with
    | none => exact Or.inr rfl
    | some k => exact Or.inl ⟨k, by rw [toInt64?_eq_some_iff.mp h], rfl⟩

/-- A literal that is read as a double may count as a whole number before it is evaluated; nothing is
lost on that way. -/
theorem Numeral.value_ofFloat (f : Float) : (Numeral.ofFloat f).value = Number.ofFloat f := by
  rw [Numeral.ofFloat]
  cases hb : Binary64.ofFloat? f with
  | none => rfl
  | some b =>
    dsimp only
    split
    · rename_i h
      obtain ⟨hwhole, hlow, hhigh⟩ := h
      have hnumber : number? f = some (b.truncate : ℚ) :=
        number?_eq_intCast_iff.mpr ⟨b, hb, hwhole, rfl⟩
      rw [Numeral.value]
      by_cases hsigned : b.truncate < 0x8000000000000000
      · have hsome := toInt64?_eq_some_iff.mpr (toInt_clampInt64 hlow hsigned)
        rw [hsome, Number.ofFloat_of_number? hnumber hlow hsigned.le]
      · have hnone : toInt64? b.truncate = none := by
          rw [Option.eq_none_iff_forall_ne_some]
          intro i hi
          exact hsigned (toInt64?_eq_some_iff.mp hi ▸ i.toInt_lt)
        obtain ⟨k, hk⟩ : ∃ k : ℕ, b.truncate = k := Int.eq_ofNat_of_zero_le (by omega)
        rw [hk, Int.cast_natCast] at hnumber
        have hback : Float.ofInt b.truncate = f := by
          rw [hk]
          exact ofNat_of_number? hnumber (by omega) (by omega)
        rw [hnone, hback]
    · rfl

end Template

/-- Every double but 2 ^ 63 becomes the integer of 64 bits that it stands for, or stays as it is if it stands
for none. A literal in the range of these integers evaluates to itself. Any other evaluates to what its
double becomes, and so is exact unless that double is 2 ^ 63. -/
theorem doubles_collapsed_exactly (f : Float) (env : Environment) (n : Template.Numeral) :
    (Number.Collapses f (Number.ofFloat f) ↔ f ≠ Number.upperLimit) ∧
    (Template.Numeral.ofFloat f).value = Number.ofFloat f ∧
    ((∃ i : Int64, n = .integer i.toInt ∧ Template.Expr.eval env (.number n) = .ok (.int i)) ∨
      ∃ number, Template.Expr.eval env (.number n) = .ok (.number number) ∧
        (Number.Collapses n.double number ↔ n.double ≠ Number.upperLimit)) := by
  refine ⟨Number.collapses_ofFloat_iff, Template.Numeral.value_ofFloat f, ?_⟩
  have heval : Template.Expr.eval env (.number n) = .ok (.number n.value) := by rw [Template.Expr.eval]
  rcases n.value_cases with ⟨i, hn, hvalue⟩ | hvalue
  · rw [heval, hvalue]
    exact Or.inl ⟨i, hn, rfl⟩
  · rw [heval, hvalue]
    exact Or.inr ⟨_, rfl, Number.collapses_ofFloat_iff⟩

/-- The least double that is no integer of 64 bits is taken for one. -/
theorem upper_limit_collapsed :
    ¬ ∀ (f : Float) (i : Int64), Number.ofFloat f = .int i → number? f = some (i.toInt : ℚ) := by
  intro h
  have hnumber := h _ _ Number.ofFloat_upperLimit
  rw [Number.number?_upperLimit, Option.some.injEq, Int.cast_inj] at hnumber
  exact absurd hnumber (by decide)

end TemplateCost
