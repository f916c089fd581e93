import TemplateCost.Json.Parser
import TemplateCost.Json.Printer
import TemplateCost.Proofs.Decimal.Layout
import TemplateCost.Proofs.Text.Reader

/-! # Numbers read back

An integer of 64 bits is read as that integer. A finite double is always written with a point or an
exponent and is therefore read as a double; which double that is rests on the digits alone, and on the
few operations that scale them.
-/
namespace TemplateCost.Json
open Text Text.Reader Decimal

/-- What may follow a number: nothing that could belong to it. -/
def EndsNumber (rest : List Char) : Prop :=
  ∀ c ∈ rest.head?, c.isDigit = false ∧ c ≠ '.' ∧ c ≠ 'e' ∧ c ≠ 'E'

variable {rest : List Char}

theorem EndsNumber.not_digit (h : EndsNumber rest) : ∀ c ∈ rest.head?, c.isDigit = false :=
  fun c hc => (h c hc).1

theorem head?_append_ne {text rest : List Char} {c : Char} (hne : text ≠ [])
    (hdigits : ∀ d ∈ text, d.isDigit = true)
    (hc : c.isDigit = false) : ∀ d ∈ (text ++ rest).head?, d ≠ c := by
  intro d hd
  rw [List.head?_append_of_ne_nil _ hne] at hd
  rintro rfl
  simp [hdigits d (List.mem_of_head? hd)] at hc

/-! ## Exponents -/

theorem exponentPart_eq_none (h : EndsNumber rest) : exponentPart rest = none := by
  have hlower : char 'e' rest = none := char_eq_none fun c hc => (h c hc).2.2.1
  have hupper : char 'E' rest = none := char_eq_none fun c hc => (h c hc).2.2.2
  rw [exponentPart, bind_apply, orElse_apply, hlower, hupper]
  rfl

/-- The sign of an exponent, if one is written. -/
def exponentSign : Reader (Option Int) := optional (char '+' *> pure 1 <|> char '-' *> pure (-1))

/-- After its sign, an exponent is its digits. -/
theorem exponentPart_of_sign {n : ℕ} {sign : Option Int} {text : List Char}
    (hsign : exponentSign text = some (sign, Nat.toDigits 10 n ++ rest))
    (h : ∀ c ∈ rest.head?, c.isDigit = false) :
    exponentPart ('e' :: text) = some (sign.getD 1 * (n : Int), rest) := by
  have hmark : (char 'e' <|> char 'E') ('e' :: text) = some ((), text) := rfl
  have hspan := span1_append Nat.toDigits_ne_nil (fun c hc => isDigit_of_mem_toDigits (n := n) hc) h
  rw [exponentSign] at hsign
  rw [exponentPart, bind_apply, hmark, Option.bind_some, bind_apply, hsign, Option.bind_some, bind_apply,
    hspan, Option.bind_some, pure_apply, digitsValue_toDigits]

theorem exponentPart_exponentText (plus : Bool) (exponent : Int)
    (h : ∀ c ∈ rest.head?, c.isDigit = false) :
    exponentPart (exponentText plus exponent ++ rest) = some (exponent, rest) := by
  by_cases hneg : exponent < 0
  · have hsign : ¬ 0 ≤ exponent := by omega
    have htext : exponentText plus exponent = 'e' :: '-' :: Nat.toDigits 10 exponent.natAbs := by
      simp [exponentText, integerText, hneg, hsign, toList_natText]
    have habs : (some (-1)).getD 1 * (exponent.natAbs : Int) = exponent := by
      rw [Option.getD_some]
      omega
    rw [htext, List.cons_append, exponentPart_of_sign rfl h, habs]
  · have habs : 1 * (exponent.natAbs : Int) = exponent := by omega
    have hdigits : (integerText exponent).toList = Nat.toDigits 10 exponent.natAbs := by
      simp [integerText, hneg, toList_natText]
    cases plus with
    | true =>
      have htext : exponentText true exponent = 'e' :: '+' :: Nat.toDigits 10 exponent.natAbs := by
        simp [exponentText, hdigits, not_lt.mp hneg]
      rw [htext, List.cons_append, exponentPart_of_sign rfl h, Option.getD_some, habs]
    | false =>
      have hplain : ∀ c ∈ Nat.toDigits 10 exponent.natAbs, c.isDigit = true :=
        fun c hc => isDigit_of_mem_toDigits hc
      have hplus : char '+' (Nat.toDigits 10 exponent.natAbs ++ rest) = none :=
        char_eq_none (head?_append_ne Nat.toDigits_ne_nil hplain (by decide))
      have hminus : char '-' (Nat.toDigits 10 exponent.natAbs ++ rest) = none :=
        char_eq_none (head?_append_ne Nat.toDigits_ne_nil hplain (by decide))
      have hsign : exponentSign (Nat.toDigits 10 exponent.natAbs ++ rest) =
          some (none, Nat.toDigits 10 exponent.natAbs ++ rest) := by
        rw [exponentSign, optional_apply, orElse_apply, seqRight_apply, seqRight_apply, hplus, hminus]
        rfl
      have htext : exponentText false exponent = 'e' :: Nat.toDigits 10 exponent.natAbs := by
        simp [exponentText, hdigits]
      rw [htext, List.cons_append, exponentPart_of_sign hsign h, Option.getD_none, habs]

/-! ## Whole numbers -/

/-- How a number goes on after its digits before the point. -/
theorem number_of_whole (negative : Bool) {whole after left : List Char} {fraction : Option (List Char)}
    {exponent : Option Int} (hne : whole ≠ []) (hdigits : ∀ c ∈ whole, c.isDigit = true)
    (hpadded : whole.length = 1 ∨ whole.head? ≠ some '0')
    (hafter : ∀ c ∈ after.head?, c.isDigit = false)
    (hfraction : optional (char '.' *> span1 Char.isDigit) after = some (fraction, left))
    (hexponent : optional exponentPart left = some (exponent, rest)) (hrest : EndsNumber rest) :
    let value := digitsValue whole
    let signed : Int := if negative then -(value : Int) else value
    number (signText negative ++ (whole ++ after)) =
      if fraction.isNone && exponent.isNone && value ≤ greatestSignificand
          && (!negative || (0 < value && inInt64 signed)) then
        some (.int signed, rest)
      else (float? negative whole (fraction.getD []) (exponent.getD 0)).map fun f => (.float f, rest) := by
  intro value signed
  have hsign : optional (char '-') (signText negative ++ (whole ++ after)) =
      some (if negative then some () else none, whole ++ after) := by
    cases negative with
    | false =>
      have hminus : char '-' (whole ++ after) = none :=
        char_eq_none (head?_append_ne hne hdigits (by decide))
      simp [signText, optional_apply, hminus]
    | true => simp [signText, optional_apply, char_cons]
  have hisSome : (if negative then some () else none).isSome = negative := by cases negative <;> rfl
  have hwhole := span1_append hne hdigits hafter
  have hguard : (decide (whole.length = 1) || decide (whole.head? ≠ some '0')) = true := by
    simpa using hpadded
  have hahead : ahead (char '.' <|> char 'e' <|> char 'E') rest = some (false, rest) := by
    have hpoint : char '.' rest = none := char_eq_none fun c hc => (hrest c hc).2.1
    have hlower : char 'e' rest = none := char_eq_none fun c hc => (hrest c hc).2.2.1
    have hupper : char 'E' rest = none := char_eq_none fun c hc => (hrest c hc).2.2.2
    rw [ahead_apply, orElse_apply, orElse_apply, hpoint, hlower, hupper]
    rfl
  rw [number, bind_apply, hsign, Option.bind_some, bind_apply, hwhole, Option.bind_some, bind_apply,
    guardThat_apply, if_pos hguard, Option.bind_some, bind_apply, hfraction, Option.bind_some,
    bind_apply, hexponent, Option.bind_some, bind_apply, hahead, Option.bind_some, bind_apply]
  simp only [guardThat_apply, Bool.not_false, if_true, Option.bind_some, hisSome]
  rw [ite_apply, bind_apply, lift_apply]
  cases float? negative whole (fraction.getD []) (exponent.getD 0) <;> rfl

/-! ## Integers -/

/-- Integers that are read as such: those of 64 bits, with or without a sign. -/
def IsWhole (i : Int) : Prop := -0x8000000000000000 ≤ i ∧ i ≤ 0xffffffffffffffff

theorem number_integerText {i : Int} (hi : IsWhole i) (hrest : EndsNumber rest) :
    number ((integerText i).toList ++ rest) = some (.int i, rest) := by
  obtain ⟨hlow, hhigh⟩ := hi
  have hpoint : char '.' rest = none := char_eq_none fun c hc => (hrest c hc).2.1
  have hfraction : optional (char '.' *> span1 Char.isDigit) rest = some (none, rest) := by
    rw [optional_apply, seqRight_apply, hpoint]
    rfl
  have hexponent : optional exponentPart rest = some (none, rest) := by
    rw [optional_apply, exponentPart_eq_none hrest]
  have hpadded : (Nat.toDigits 10 i.natAbs).length = 1 ∨ (Nat.toDigits 10 i.natAbs).head? ≠ some '0' := by
    by_cases hzero : i.natAbs = 0
    · exact Or.inl (by rw [hzero]; rfl)
    · exact Or.inr (toDigits_head_ne_zero hzero)
  have hread := number_of_whole (decide (i < 0)) Nat.toDigits_ne_nil
    (fun c hc => isDigit_of_mem_toDigits hc) hpadded hrest.not_digit hfraction hexponent hrest
  have htext : (integerText i).toList = signText (decide (i < 0)) ++ Nat.toDigits 10 i.natAbs := by
    by_cases hneg : i < 0 <;> simp [integerText, signText, hneg, toList_natText]
  have hgreatest : greatestSignificand = 0xffffffffffffffff := rfl
  rw [htext, List.append_assoc, hread, digitsValue_toDigits, if_pos]
  · by_cases hneg : i < 0
    · simp only [hneg, decide_true, if_true, Option.some.injEq, Prod.mk.injEq, Json.int.injEq, and_true]
      omega
    · simp only [hneg, decide_false, Bool.false_eq_true, if_false, Option.some.injEq, Prod.mk.injEq,
        Json.int.injEq, and_true]
      omega
  · by_cases hneg : i < 0
    · simp only [hneg, decide_true, if_true, Option.isNone_none, Bool.and_self, Bool.true_and, Bool.not_true,
        Bool.false_or, Bool.and_eq_true, decide_eq_true_eq, inInt64]
      omega
    · simp only [hneg, decide_false, Option.isNone_none, Bool.and_self, Bool.true_and, Bool.not_false,
        Bool.true_or, Bool.and_true, decide_eq_true_eq]
      omega

/-! ## Doubles -/

theorem fraction_apply {p : Parts} (hp : p.IsWritten) {after : List Char}
    (hdigit : ∀ c ∈ after.head?, c.isDigit = false) (hpoint : ∀ c ∈ after.head?, c ≠ '.') :
    optional (char '.' *> span1 Char.isDigit)
        ((if p.fraction = [] then [] else '.' :: p.fraction) ++ after) =
      some (if p.fraction = [] then none else some p.fraction, after) := by
  by_cases hne : p.fraction = []
  · have hnone : char '.' after = none := char_eq_none hpoint
    simp [optional_apply, seqRight_apply, hne, hnone]
  · have hspan := span1_append hne hp.fraction_digits hdigit
    simp [optional_apply, seqRight_apply, char_cons, hne, hspan]

/-- What is written with a point or an exponent is a double, even if it is whole. -/
theorem number_parts (negative : Bool) {p : Parts} (hp : p.IsWritten) {exponent : Option Int}
    (hwritten : p.fraction ≠ [] ∨ exponent.isSome) {after : List Char}
    (hdigit : ∀ c ∈ after.head?, c.isDigit = false) (hpoint : ∀ c ∈ after.head?, c ≠ '.')
    (hexponent : optional exponentPart after = some (exponent, rest)) (hrest : EndsNumber rest) :
    number (signText negative ++ (p.pointText ++ after)) =
      (float? negative p.whole p.fraction (exponent.getD 0)).map fun f => (.float f, rest) := by
  have hafter : ∀ c ∈ ((if p.fraction = [] then [] else '.' :: p.fraction) ++ after).head?,
      c.isDigit = false := by
    split
    · exact hdigit
    · rintro c ⟨⟩
      decide
  have hread := number_of_whole negative hp.whole_ne_nil hp.whole_digits hp.not_padded hafter
    (fraction_apply hp hdigit hpoint) hexponent hrest
  have hdouble : ((if p.fraction = [] then none else some p.fraction).isNone && exponent.isNone) = false := by
    rcases hwritten with hne | hsome
    · simp [hne]
    · cases exponent <;> simp_all
  have hfraction : (if p.fraction = [] then none else some p.fraction).getD [] = p.fraction := by
    split <;> simp_all
  rw [Parts.pointText, List.append_assoc, hread, hdouble, hfraction]
  rfl

/-- The shortest decimal of the double, as it is written, is taken for the double when it is read. -/
def ReadsBack (f : Float) : Prop :=
  ∀ b ∈ Binary64.ofFloat? f,
    let p := numberLayout.parts (shortest numberLayout.tie b)
    float? b.negative p.whole p.fraction p.exponent = some f

instance (f : Float) : Decidable (ReadsBack f) :=
  inferInstanceAs (Decidable (∀ b ∈ Binary64.ofFloat? f,
    float? b.negative (numberLayout.parts (shortest numberLayout.tie b)).whole
      (numberLayout.parts (shortest numberLayout.tie b)).fraction
      (numberLayout.parts (shortest numberLayout.tie b)).exponent = some f))

theorem number_text {f : Float} {b : Binary64} (hb : Binary64.ofFloat? f = some b) (hf : ReadsBack f)
    (hrest : EndsNumber rest) :
    number ((numberLayout.text f).toList ++ rest) = some (.float f, rest) := by
  have hread : float? b.negative (numberLayout.parts (shortest numberLayout.tie b)).whole
      (numberLayout.parts (shortest numberLayout.tie b)).fraction
      (numberLayout.parts (shortest numberLayout.tie b)).exponent = some f := hf b hb
  have hp := numberLayout.parts_isWritten (shortest numberLayout.tie b)
  rw [numberLayout.toList_text hb, numberLayout.toList_digitsText, List.append_assoc,
    List.append_assoc]
  by_cases hpositional : numberLayout.isPositional (shortest numberLayout.tie b)
  · have hpoint : numberLayout.wholePoint = true := rfl
    have hne := Layout.fraction_ne_nil hpoint hpositional
    have hexponent : optional exponentPart rest = some (none, rest) := by
      rw [optional_apply, exponentPart_eq_none hrest]
    rw [Layout.exponent_eq_zero hpositional] at hread
    rw [if_pos hpositional, List.nil_append, number_parts _ hp (Or.inl hne) hrest.not_digit
      (fun c hc => (hrest c hc).2.1) hexponent hrest, Option.getD_none, hread, Option.map_some]
  · have hexponent := exponentPart_exponentText numberLayout.exponentPlus
      (numberLayout.parts (shortest numberLayout.tie b)).exponent hrest.not_digit
    have hsome : optional exponentPart (exponentText numberLayout.exponentPlus
        (numberLayout.parts (shortest numberLayout.tie b)).exponent ++ rest) =
        some (some (numberLayout.parts (shortest numberLayout.tie b)).exponent, rest) := by
      rw [optional_apply, hexponent]
    have hmark : ∀ c ∈ (exponentText numberLayout.exponentPlus
        (numberLayout.parts (shortest numberLayout.tie b)).exponent ++ rest).head?, c = 'e' := by
      rintro c ⟨⟩
      rfl
    rw [if_neg hpositional, number_parts _ hp (Or.inr rfl) (fun c hc => hmark c hc ▸ rfl)
      (fun c hc => hmark c hc ▸ by decide) hsome hrest, Option.getD_some, hread, Option.map_some]

end TemplateCost.Json
